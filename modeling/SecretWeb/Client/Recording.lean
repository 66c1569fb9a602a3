import SecretWeb.Client.StoreSecret
import SecretWeb.Network.Exchange

/-! # Recording a secret and looking it up

The local server keeps a record for each of its own host's secrets.  A command posts the
record of its publication there, and reads it back before it asks peers for shares. -/

namespace SecretWeb.Client

open SecretWeb.Data SecretWeb.Python SecretWeb.Server SecretWeb.Network

/-- The record that the local server makes of a post of the command. -/
def secretRecord (uuid : Json) (treshold : Int) (successes : Nat) (now : String) : Json :=
  .dict [("uuid", uuid), ("treshold", .int treshold), ("shares_saved", .int successes), ("last_updated", .str now)]

section Recording

variable (lower : String → String) (intOf : String → Option Int) (decodePath : Bytes → String)
  (commonName : Option String)

def lookup (server : Server) (name : String) : Except PyException Json :=
  Client.getSecretMetadata name (getSecret lower decodePath server name commonName)

/-- The local server takes its clients for its own host. -/
def Accepted (server : Server) : Prop :=
  ∃ own, ownName server = .ok own ∧ requireOwnerMatchesClientCert lower commonName own = .ok ()

variable {lower intOf decodePath commonName}

/-! ## One post and one lookup -/

theorem checkMetadata_metadata {server : Server} {uuid : Json} {treshold : Int} {successes : Nat} {now : String}
    (accepted : Accepted lower commonName server) :
    checkMetadata lower intOf server commonName (.ok (metadata uuid treshold successes)) now =
      .ok (secretRecord uuid treshold successes now) := by
  obtain ⟨own, owned, matched⟩ := accepted
  have fields : metadataFields intOf (metadata uuid treshold successes) = .ok (uuid, treshold, (successes : Int)) :=
    rfl
  rw [checkMetadata, ok_bind]
  simp only [metadata, Json.asDict] at fields ⊢
  simp only [fields, owned, ok_bind, matched]
  rfl

theorem checkMetadata_foreign {server : Server} {uuid : Json} {treshold : Int} {successes : Nat} {now : String}
    (foreign : ¬Accepted lower commonName server) :
    ∃ failure, failure.Errs ∧
      checkMetadata lower intOf server commonName (.ok (metadata uuid treshold successes)) now = .error failure := by
  have fields : metadataFields intOf (metadata uuid treshold successes) = .ok (uuid, treshold, (successes : Int)) :=
    rfl
  rw [checkMetadata, ok_bind]
  simp only [metadata, Json.asDict] at fields ⊢
  simp only [fields]
  cases owned : ownName server with
  | error failure => exact ⟨failure, ownName_errs owned, rfl⟩
  | ok own =>
    cases matched : requireOwnerMatchesClientCert lower commonName own with
    | error failure =>
      refine ⟨failure, requireOwnerMatchesClientCert_errs matched, ?_⟩
      rw [ok_bind, matched]
      rfl
    | ok checked => exact absurd ⟨own, owned, matched⟩ foreign

theorem recorded_of_fails {reply : Reply} (fails : Fails reply) : recorded reply = .error (.systemExit 1) := by
  obtain ⟨exception, failed, caught⟩ := recordSecret_of_fails fails
  rw [recorded, failed]
  dsimp only
  rw [if_pos caught]

/-- The one spec of the post of a record: it is refused and changes nothing, or it writes
the record under the key of its name. -/
theorem postSecret_cases {server after : Server} {name : String} {uuid : Json} {treshold : Int} {successes : Nat}
    {now : String} {saved : Bool} {reply : Reply}
    (posted : postSecret lower intOf decodePath server name commonName (metadata uuid treshold successes) now saved =
      (reply, after)) :
    (after = server ∧ recorded reply ≠ .ok ()) ∨
    ∃ key, Accepted lower commonName server ∧ routed decodePath "/secrets/" name = some key ∧
      after.hosts = server.hosts ∧
      after.memory.secrets = Dict.set server.memory.secrets key (secretRecord uuid treshold successes now) ∧
      (saved = true → recorded reply = .ok ()) := by
  unfold postSecret at posted
  cases arrives : routed decodePath "/secrets/" name with
  | none =>
    rw [arrives] at posted
    cases posted
    exact .inl ⟨rfl, by rw [recorded_of_fails fails_notFound]; simp⟩
  | some key =>
    rw [arrives] at posted
    dsimp only at posted
    by_cases accepted : Accepted lower commonName server
    · have checked := @checkMetadata_metadata _ intOf _ _ uuid treshold successes now accepted
      rw [storeSecretMetadata_checked saved checked] at posted
      cases saved with
      | true =>
        cases posted
        exact .inr ⟨key, accepted, rfl, rfl, rfl, fun _ => rfl⟩
      | false =>
        cases posted
        exact .inr ⟨key, accepted, rfl, rfl, rfl, fun impossible => by cases impossible⟩
    · obtain ⟨failure, errs, refused⟩ :=
        @checkMetadata_foreign _ intOf _ _ uuid treshold successes now accepted
      rw [storeSecretMetadata_unchecked saved refused] at posted
      cases posted
      exact .inl ⟨rfl, by rw [recorded_of_fails (fails_reply errs)]; simp⟩

theorem lookup_of_key {server : Server} {name key : String} {record : Json}
    (accepted : Accepted lower commonName server)
    (arrives : routed decodePath "/secrets/" name = some key)
    (found : Dict.get server.memory.secrets key = some record) :
    lookup lower decodePath commonName server name = .ok record := by
  obtain ⟨own, owned, matched⟩ := accepted
  simp only [lookup, getSecret, arrives, Server.getSecretMetadata, owned, matched, ok_bind, found]
  rfl

/-- A lookup sees nothing of a server but its host list and the one entry. -/
theorem lookup_congr {before after : Server} {name : String} (hosts : after.hosts = before.hosts)
    (same : ∀ key, routed decodePath "/secrets/" name = some key →
      Dict.get after.memory.secrets key = Dict.get before.memory.secrets key) :
    lookup lower decodePath commonName after name = lookup lower decodePath commonName before name := by
  cases arrives : routed decodePath "/secrets/" name with
  | none => simp only [lookup, getSecret, arrives]
  | some key =>
    simp only [lookup, getSecret, arrives, Server.getSecretMetadata, ownName, hosts, same key arrives]

theorem accepted_congr {before after : Server} (hosts : after.hosts = before.hosts)
    (accepted : Accepted lower commonName after) : Accepted lower commonName before := by
  obtain ⟨own, owned, matched⟩ := accepted
  refine ⟨own, ?_, matched⟩
  rw [← owned, ownName, ownName, hosts]

end Recording

end SecretWeb.Client
