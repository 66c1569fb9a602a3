import SecretWeb.Server.Identity
import SecretWeb.HostsData
import SecretWeb.Shamir.Decoder
import SecretWeb.Machine.Runs

/-! # The routes for shares and secrets

A server keeps two maps in memory and writes the whole of one to its file whenever a route
has changed it.  A request comes with what the framework makes of its body and with whether
the write it may lead to succeeds; a write that raises leaves the file as it was. -/

namespace SecretWeb.Server

open SecretWeb.Python SecretWeb.Shamir SecretWeb.HostsData

/-- The contents of `shares.dta` and `secrets.dta`, or of the maps loaded from them. -/
structure Store where
  shares : Dict Json
  secrets : Dict Json

structure Server where
  hosts : Json
  memory : Store
  disk : Store

/-- The status and the body of an answer that is not an abort. -/
abbrev Answer := Nat × Json

section Routes

-- `str.lower` and `int(text)`
variable (lower : String → String) (intOf : String → Option Int)

/-! ## Shares -/

/-- `cryptofile.save` raises `OSError` unless the write succeeds. -/
def persistShares (saved : Bool) (server : Server) : Except Failure Unit × Server :=
  if saved then (.ok (), { server with disk := { server.disk with shares := server.memory.shares } })
  else (.error (.raised .osError), server)

/-- What `store_share` checks before it looks at the map: the body as a share of this uuid
whose owner is the client. -/
def checkShare (shareUuid : String) (commonName : Option String) (body : Except Failure Json) :
    Except Failure Json := do
  let payload ← body
  match payload.asDict with
  | none => .error (.aborted 400 "body must be a JSON object")
  | some entries =>
    if !((Dict.get entries "uuid").getD .null).equals (.str shareUuid) then
      .error (.aborted 400 "uuid in body does not match uuid in path")
    else
      -- `shamir.ShamirSecret("", "")` never raises and its uuid plays no part
      match ((ShamirSecret.fresh (.str "") (.str "") 5 3 "").populateDecoder payload).1 with
      | .error (.keyError key) =>
        .error (.aborted 400 ("malformed share: " ++ (PyException.keyError key).text))
      | .error (.invalidShareError message) => .error (.aborted 400 ("malformed share: " ++ message))
      | .error exception => .error (.raised exception)
      | .ok _ =>
        match payload.getItem "owner" with
        | .error exception => .error (.raised exception)
        | .ok owner => do
          requireOwnerMatchesClientCert lower commonName owner
          return payload

def storeShare (server : Server) (shareUuid : String) (commonName : Option String)
    (body : Except Failure Json) (saved : Bool) : Except Failure Answer × Server :=
  match checkShare lower shareUuid commonName body with
  | .error failure => (.error failure, server)
  | .ok payload =>
    match Dict.get server.memory.shares shareUuid with
    | some existing =>
      if existing.equals payload then (.ok (200, .dict [("status", .str "already-stored")]), server)
      else (.error (.aborted 409 "a different share is already stored for this uuid"), server)
    | none =>
      let server := { server with
        memory := { server.memory with shares := Dict.set server.memory.shares shareUuid payload } }
      match persistShares saved server with
      | (.error failure, server) => (.error failure, server)
      | (.ok (), server) => (.ok (201, .dict [("status", .str "stored")]), server)

def getShare (server : Server) (shareUuid : String) (commonName : Option String) :
    Except Failure Answer :=
  match Dict.get server.memory.shares shareUuid with
  | none => .error (.aborted 404 "no share stored for this uuid")
  | some share =>
    match share.getItem "owner" with
    | .error exception => .error (.raised exception)
    | .ok owner => do
      requireOwnerMatchesClientCert lower commonName owner
      return (200, share)

/-! ## Secrets -/

/-- `int(value)` of a JSON value: floats are cut off toward zero. -/
def pyInt : Json → Except PyException Int
  | .bool value => .ok (if value then 1 else 0)
  | .int value => .ok value
  | .float (.finite value) => .ok (value.num.tdiv value.den)
  | .float .negativeZero => .ok 0
  | .float .nan => .error (.valueError "cannot convert float NaN to integer")
  | .float (.infinity _) => .error .overflowError
  | .str text =>
    match intOf text with
    | some value => .ok value
    | none => .error (.valueError ("invalid literal for int() with base 10: '" ++ text ++ "'"))
  | _ => .error .typeError

def persistSecrets (saved : Bool) (server : Server) : Except Failure Unit × Server :=
  if saved then (.ok (), { server with disk := { server.disk with secrets := server.memory.secrets } })
  else (.error (.raised .osError), server)

/-- This server's own name; what raises here ends the request. -/
def ownName (server : Server) : Except Failure Json :=
  match (do let ownHost ← ownHostEntry server.hosts; ownHost.getItem "name") with
  | .ok name => .ok name
  | .error exception => .error (.raised exception)

/-- The fields of a record as `store_secret_metadata` reads them off the body. -/
def metadataFields (payload : Json) : Except PyException (Json × Int × Int) := do
  let uuid ← payload.getItem "uuid"
  let tresholdValue ← payload.getItem "treshold"
  let treshold ← pyInt intOf tresholdValue
  let sharesSavedValue ← payload.getItem "shares_saved"
  let sharesSaved ← pyInt intOf sharesSavedValue
  return (uuid, treshold, sharesSaved)

/-- What `store_secret_metadata` checks, and the record it is then going to write. -/
def checkMetadata (server : Server) (commonName : Option String) (body : Except Failure Json)
    (now : String) : Except Failure Json := do
  let payload ← body
  match payload.asDict with
  | none => .error (.aborted 400 "body must be a JSON object")
  | some _ =>
    match metadataFields intOf payload with
    | .error (.keyError key) =>
      .error (.aborted 400 ("malformed secret metadata: " ++ (PyException.keyError key).text))
    | .error .typeError => .error (.aborted 400 ("malformed secret metadata: " ++ PyException.typeError.text))
    | .error (.valueError message) => .error (.aborted 400 ("malformed secret metadata: " ++ message))
    | .error exception => .error (.raised exception)
    | .ok (uuid, treshold, sharesSaved) => do
      let ownName ← ownName server
      requireOwnerMatchesClientCert lower commonName ownName
      return .dict [("uuid", uuid), ("treshold", .int treshold), ("shares_saved", .int sharesSaved),
        ("last_updated", .str now)]

def storeSecretMetadata (server : Server) (name : String) (commonName : Option String)
    (body : Except Failure Json) (now : String) (saved : Bool) : Except Failure Answer × Server :=
  match checkMetadata lower intOf server commonName body now with
  | .error failure => (.error failure, server)
  | .ok record =>
    let server := { server with
      memory := { server.memory with secrets := Dict.set server.memory.secrets name record } }
    match persistSecrets saved server with
    | (.error failure, server) => (.error failure, server)
    | (.ok (), server) => (.ok (201, record), server)

def getSecretMetadata (server : Server) (name : String) (commonName : Option String) :
    Except Failure Answer := do
  let ownName ← ownName server
  requireOwnerMatchesClientCert lower commonName ownName
  match Dict.get server.memory.secrets name with
  | none => .error (.aborted 404 "no secret recorded under this name")
  | some record => return (200, record)

/-! ## Requests and restarts -/

inductive Request where
  | postShare (shareUuid : String) (commonName : Option String) (body : Except Failure Json) (saved : Bool)
  | getShare (shareUuid : String) (commonName : Option String)
  | postSecret (name : String) (commonName : Option String) (body : Except Failure Json) (now : String)
      (saved : Bool)
  | getSecret (name : String) (commonName : Option String)
  | restart

/-- Loading the files at boot. -/
def restart (server : Server) : Server := { server with memory := server.disk }

/-- One step of the server; a restart answers nobody. -/
def handle (server : Server) : Request → Option (Except Failure Answer) × Server
  | .postShare shareUuid commonName body saved =>
    let (answer, after) := storeShare lower server shareUuid commonName body saved
    (some answer, after)
  | .getShare shareUuid commonName => (some (getShare lower server shareUuid commonName), server)
  | .postSecret name commonName body now saved =>
    let (answer, after) := storeSecretMetadata lower intOf server name commonName body now saved
    (some answer, after)
  | .getSecret name commonName => (some (getSecretMetadata lower server name commonName), server)
  | .restart => (none, restart server)

end Routes

end SecretWeb.Server
