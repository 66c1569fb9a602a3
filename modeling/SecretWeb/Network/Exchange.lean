import SecretWeb.Client.PeerClient
import SecretWeb.Network.Target
import SecretWeb.Server.RouteSpecs

/-! # One request between a client and a server

A request is matched against the routes and served, or it fails: it may not arrive, and
its reply may get lost after it has been served.  A failure looks like a connection error
or an error status to the client. -/

namespace SecretWeb.Network

open SecretWeb.Data SecretWeb.Python SecretWeb.Client SecretWeb.Server

/-- A failed request as its client sees it. -/
inductive Outage where
  | connection
  | status (code : Nat) (failed : code ≠ 200 ∧ code ≠ 201)

def Outage.reply : Outage → Reply
  | .connection => .osError
  | .status code _ => .response code .notJson

/-- What becomes of a request that writes: whether it arrives, whether the write it leads
to succeeds, and whether its reply arrives. -/
inductive Fate where
  | undelivered (outage : Outage)
  | unanswered (saved : Bool) (outage : Outage)
  | answered (saved : Bool)

def exchange (fate : Fate) (server : Server) (serve : Bool → Reply × Server) : Reply × Server :=
  match fate with
  | .undelivered outage => (outage.reply, server)
  | .unanswered saved outage => (outage.reply, (serve saved).2)
  | .answered saved => serve saved

/-- The end of a route as the framework sends it; an error page is not JSON. -/
def reply : Except Failure Answer → Reply
  | .ok (status, body) => .response status (.document body)
  | .error (.aborted status _) => .response status .notJson
  | .error (.raised _) => .response 500 .notJson

/-- The index route: `OK`, which is no JSON. -/
def index : Reply := .response 200 .notJson

/-- No route matches the path. -/
def notFound : Reply := .response 404 .notJson

section Requests

variable (lower : String → String) (intOf : String → Option Int) (decodePath : Bytes → String)

def postShare (server : Server) (uuid : String) (commonName : Option String) (body : Json) (saved : Bool) :
    Reply × Server :=
  match routed decodePath "/shares/" uuid with
  | none => (notFound, server)
  | some shareUuid =>
    let (answer, after) := storeShare lower server shareUuid commonName (.ok body) saved
    (reply answer, after)

def getShare (server : Server) (uuid : String) (commonName : Option String) : Reply :=
  match routed decodePath "/shares/" uuid with
  | none => notFound
  | some shareUuid => reply (Server.getShare lower server shareUuid commonName)

def postSecret (server : Server) (secretName : String) (commonName : Option String) (body : Json) (now : String)
    (saved : Bool) : Reply × Server :=
  match routed decodePath "/secrets/" secretName with
  | none => (notFound, server)
  | some name =>
    let (answer, after) := storeSecretMetadata lower intOf server name commonName (.ok body) now saved
    (reply answer, after)

def getSecret (server : Server) (secretName : String) (commonName : Option String) : Reply :=
  match routed decodePath "/secrets/" secretName with
  | none => notFound
  | some name => reply (Server.getSecretMetadata lower server name commonName)

end Requests

/-! ## Failures on the wire -/

theorem Outage.fails (outage : Outage) : Fails outage.reply := by
  cases outage with
  | connection => exact trivial
  | status code failed => exact failed

theorem fails_reply {failure : Failure} (errs : failure.Errs) : Fails (reply (.error failure)) := by
  cases failure with
  | aborted status text => exact errs
  | raised exception => exact ⟨by decide, by decide⟩

theorem fails_notFound : Fails notFound := ⟨by decide, by decide⟩

/-- A request is not served at all, or it is served and its reply arrives or fails. -/
theorem exchange_cases {fate : Fate} {server after : Server} {serve : Bool → Reply × Server} {reply : Reply}
    (exchanged : exchange fate server serve = (reply, after)) :
    (after = server ∧ Fails reply) ∨ ∃ saved, after = (serve saved).2 ∧ (reply = (serve saved).1 ∨ Fails reply) := by
  cases fate with
  | undelivered outage =>
    cases exchanged
    exact .inl ⟨rfl, outage.fails⟩
  | unanswered saved outage =>
    cases exchanged
    exact .inr ⟨saved, rfl, .inr outage.fails⟩
  | answered saved =>
    have served : serve saved = (reply, after) := exchanged
    exact .inr ⟨saved, by rw [served], .inl (by rw [served])⟩

end SecretWeb.Network
