import SecretWeb.Setup.Hosts
import Mathlib.Data.List.TakeWhile

/-! # Finding the own host

Setup recognises its own entry by comparing leftmost labels letter by letter; the server
compares the whole typed name, case aside.  The two agree exactly when the entry that setup
picks carries no domain, and when it picks none because none is a case variant. -/

namespace SecretWeb.Setup

open SecretWeb.Python SecretWeb.Server SecretWeb.HostsData

/-! ## Labels -/

theorem hostname_of_bare {name : String} (bare : '.' ∉ name.toList) : hostnameFromCommonName name = name := by
  have all : name.toList.takeWhile (· ≠ '.') = name.toList := by
    refine List.takeWhile_eq_self_iff.mpr fun character member => ?_
    refine decide_eq_true fun dot => bare ?_
    rw [← dot]
    exact member
  rw [hostnameFromCommonName, all, String.ofList_toList]

theorem hostname_bare (name : String) : '.' ∉ (hostnameFromCommonName name).toList := by
  intro member
  rw [hostnameFromCommonName, String.toList_ofList] at member
  simpa using List.mem_takeWhile_imp member

/-! ## The entry that is picked -/

theorem matchOwnHost_eq (hosts : List Host) (ownHostname : String) :
    matchOwnHost hosts ownHostname =
      match hosts.find? fun host => hostnameFromCommonName host.name = ownHostname with
      | some host => .ok host.name
      | none => .error (.systemExit 1) := by
  induction hosts with
  | nil => rfl
  | cons host rest inductionHypothesis =>
    rw [matchOwnHost, List.find?_cons]
    by_cases same : hostnameFromCommonName host.name = ownHostname
    · simp [same]
    · simp [same, inductionHypothesis]

/-! ## The entry that is written -/

/-- Every record of the list is that of a host of its name. -/
def Recorded (ownName : String) (ownPort : Int) (now : String) (records : Dict Json) : Prop :=
  ∀ entry ∈ records, ∃ host : Host, host.name = entry.1 ∧ entry.2 = hostRecord host ownName ownPort now

theorem recorded_set {ownName now : String} {ownPort : Int} {records : Dict Json}
    (recorded : Recorded ownName ownPort now records) (host : Host) :
    Recorded ownName ownPort now (Dict.set records host.name (hostRecord host ownName ownPort now)) := by
  induction records with
  | nil =>
    intro entry member
    rw [Dict.set, List.mem_singleton] at member
    exact ⟨host, by rw [member], by rw [member]⟩
  | cons first rest inductionHypothesis =>
    have recordedRest : Recorded ownName ownPort now rest :=
      fun entry member => recorded entry (List.mem_cons_of_mem _ member)
    rw [Dict.set]
    split
    · intro entry member
      rcases List.mem_cons.mp member with rfl | later
      · exact ⟨host, rfl, rfl⟩
      · exact recordedRest entry later
    · intro entry member
      rcases List.mem_cons.mp member with rfl | later
      · exact recorded _ List.mem_cons_self
      · exact inductionHypothesis recordedRest entry later

theorem recorded_build (hosts : List Host) {ownName now : String} {ownPort : Int} {records : Dict Json}
    (recorded : Recorded ownName ownPort now records) :
    Recorded ownName ownPort now (hosts.foldl
      (fun records host => Dict.set records host.name (hostRecord host ownName ownPort now)) records) := by
  induction hosts generalizing records with
  | nil => exact recorded
  | cons host rest inductionHypothesis => exact inductionHypothesis (recorded_set recorded host)

/-- A name that is set is there at the end, whatever is set after it. -/
theorem isSome_get_build {hosts : List Host} {ownName now : String} {ownPort : Int} {records : Dict Json}
    {name : String} (present : (Dict.get records name).isSome ∨ ∃ host ∈ hosts, host.name = name) :
    (Dict.get (hosts.foldl
      (fun records host => Dict.set records host.name (hostRecord host ownName ownPort now)) records)
        name).isSome := by
  induction hosts generalizing records with
  | nil =>
    rcases present with before | ⟨_, member, _⟩
    · exact before
    · cases member
  | cons host rest inductionHypothesis =>
    refine inductionHypothesis ?_
    rw [Dict.get_set]
    by_cases same : name = host.name
    · exact .inl (by simp [same])
    · rw [if_neg same]
      rcases present with before | ⟨other, member, named⟩
      · exact .inl before
      · rcases List.mem_cons.mp member with rfl | later
        · exact absurd named.symm same
        · exact .inr ⟨other, later, named⟩

theorem findLocal_recorded {ownName now : String} {ownPort : Int} {records : Dict Json}
    (recorded : Recorded ownName ownPort now records) (present : (Dict.get records ownName).isSome) :
    ∃ entry, findLocal records = .ok entry ∧ entry.getItem "name" = .ok (.str ownName) := by
  induction records with
  | nil => cases present
  | cons first rest inductionHypothesis =>
    obtain ⟨name, record⟩ := first
    obtain ⟨host, hostName, rfl⟩ := recorded _ List.mem_cons_self
    dsimp only at hostName
    subst hostName
    by_cases own : host.name = ownName
    · subst own
      have status : (hostRecord host host.name ownPort now).getOptional "status" = .ok (.str "local") := by
        simp [hostRecord, Json.getOptional, Dict.get_cons]
      refine ⟨namedEntry host.name ((hostRecord host host.name ownPort now).asDict.getD []), ?_, rfl⟩
      rw [findLocal, status, ok_bind]
      rfl
    · rw [Dict.get_cons, if_neg (Ne.symm own)] at present
      obtain ⟨entry, found, named⟩ := inductionHypothesis
        (fun other member => recorded other (List.mem_cons_of_mem _ member)) present
      have status : (hostRecord host ownName ownPort now).getOptional "status" = .ok (.str "default") := by
        simp [hostRecord, Json.getOptional, Dict.get_cons, own]
      refine ⟨entry, ?_, named⟩
      rw [findLocal, status, ok_bind]
      exact found

/-- The name of the `local` entry is the one that was matched. -/
theorem ownHostEntry_buildHostsData {hosts : List Host} {ownName : String} (ownPort : Int) (now : String)
    (listed : ∃ host ∈ hosts, host.name = ownName) :
    ∃ entry, ownHostEntry (buildHostsData hosts ownName ownPort now) = .ok entry ∧
      entry.getItem "name" = .ok (.str ownName) := by
  have nothing : Recorded ownName ownPort now [] := fun entry member => absurd member List.not_mem_nil
  exact findLocal_recorded (recorded_build hosts nothing) (isSome_get_build (.inr listed))

/-! ## Agreement with the server -/

section Agreement

variable (lower : String → String)

/-- For one certificate and one host list: whatever entry setup picks, the server accepts its
name and that of the `local` entry written for it, and setup picks one if the server would
accept any. -/
structure IdentityAgrees (hosts : List Host) (commonName : String) (ownPort : Int) (now : String) : Prop where
  accepted : ∀ ownName, matchOwnHost hosts (hostnameFromCommonName commonName) = .ok ownName →
    requireOwnerMatchesClientCert lower (some commonName) (.str ownName) = .ok () ∧
    ∃ entry name, ownHostEntry (buildHostsData hosts ownName ownPort now) = .ok entry ∧
      entry.getItem "name" = .ok name ∧ requireOwnerMatchesClientCert lower (some commonName) name = .ok ()
  found : (∃ host ∈ hosts, requireOwnerMatchesClientCert lower (some commonName) (.str host.name) = .ok ()) →
    ∃ ownName, matchOwnHost hosts (hostnameFromCommonName commonName) = .ok ownName

variable {lower}

theorem accepts_iff (commonName name : String) :
    requireOwnerMatchesClientCert lower (some commonName) (.str name) = .ok () ↔
      lower (hostnameFromCommonName commonName) = lower name := by
  rw [requireOwnerMatchesClientCert_eq_ok]
  constructor
  · rintro ⟨presented, text, client, owner, same⟩
    cases client
    cases owner
    exact same
  · exact fun same => ⟨commonName, name, rfl, rfl, same⟩

/-- The server accepts a name with the certificate's label exactly when the name is bare. -/
theorem accepts_iff_bare (dots : ∀ text, '.' ∈ (lower text).toList ↔ '.' ∈ text.toList)
    {commonName name : String} (label : hostnameFromCommonName name = hostnameFromCommonName commonName) :
    requireOwnerMatchesClientCert lower (some commonName) (.str name) = .ok () ↔ '.' ∉ name.toList := by
  rw [accepts_iff, ← label]
  constructor
  · intro same qualified
    have dotted := (dots name).mpr qualified
    rw [← same] at dotted
    exact hostname_bare name ((dots _).mp dotted)
  · intro bare
    rw [hostname_of_bare bare]

end Agreement

/-- Setup and the server agree on a host's identity if and only if the first entry with the
certificate's label carries no domain or, where there is no such entry, no typed name is the
label in other letters. -/
theorem identity_agrees_iff (lower : String → String)
    (dots : ∀ text, '.' ∈ (lower text).toList ↔ '.' ∈ text.toList) (hosts : List Host)
    (commonName : String) (ownPort : Int) (now : String) :
    IdentityAgrees lower hosts commonName ownPort now ↔
      match hosts.find? fun host => hostnameFromCommonName host.name = hostnameFromCommonName commonName with
      | some host => '.' ∉ host.name.toList
      | none => ∀ host ∈ hosts, lower host.name ≠ lower (hostnameFromCommonName commonName) := by
  have matched := matchOwnHost_eq hosts (hostnameFromCommonName commonName)
  cases picked : hosts.find? fun host => hostnameFromCommonName host.name = hostnameFromCommonName commonName with
  | some host =>
    rw [picked] at matched
    have label : hostnameFromCommonName host.name = hostnameFromCommonName commonName := by
      simpa using List.find?_some picked
    have accepts := accepts_iff_bare dots label
    constructor
    · intro agrees
      exact accepts.mp (agrees.accepted host.name matched).1
    · intro bare
      refine ⟨fun ownName own => ?_, fun _ => ⟨host.name, matched⟩⟩
      obtain rfl : host.name = ownName := Except.ok.inj (matched.symm.trans own)
      obtain ⟨entry, found, named⟩ := ownHostEntry_buildHostsData ownPort now
        ⟨host, List.mem_of_find?_eq_some picked, rfl⟩
      exact ⟨accepts.mpr bare, entry, _, found, named, accepts.mpr bare⟩
  | none =>
    rw [picked] at matched
    constructor
    · intro agrees host member variant
      obtain ⟨ownName, own⟩ := agrees.found ⟨host, member, (accepts_iff _ _).mpr variant.symm⟩
      cases matched.symm.trans own
    · intro noVariant
      refine ⟨fun ownName own => ?_, ?_⟩
      · cases matched.symm.trans own
      · rintro ⟨host, member, accepted⟩
        exact absurd ((accepts_iff _ _).mp accepted).symm (noVariant host member)

/-- `str.lower` on ASCII text. -/
def lowerAscii (text : String) : String := String.ofList (text.toList.map Char.toLower)

/-- A typed name with a domain is picked and then refused; one in capitals is accepted but
not picked. -/
theorem identity_disagrees :
    (matchOwnHost [⟨"host1.example.org", "10.0.0.1", [], "server"⟩] (hostnameFromCommonName "host1") =
        .ok "host1.example.org" ∧
      requireOwnerMatchesClientCert lowerAscii (some "host1") (.str "host1.example.org") =
        .error (.aborted 403 "owner does not match client certificate identity")) ∧
    requireOwnerMatchesClientCert lowerAscii (some "host1") (.str "HOST1") = .ok () ∧
      matchOwnHost [⟨"HOST1", "10.0.0.1", [], "server"⟩] (hostnameFromCommonName "host1") =
        .error (.systemExit 1) := by
  decide

/-- A bare name under a certificate with a domain. -/
theorem identity_agrees_bare :
    IdentityAgrees id [⟨"host2", "10.0.0.2", [], "server"⟩, ⟨"host1", "10.0.0.1", [], "server"⟩]
      "host1.example.org" 59222 "now" := by
  refine (identity_agrees_iff id (fun _ => Iff.rfl) _ _ _ _).mpr ?_
  show '.' ∉ "host1".toList
  decide

end SecretWeb.Setup
