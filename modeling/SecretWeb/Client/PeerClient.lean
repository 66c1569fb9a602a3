import SecretWeb.Python.Json

/-! # Requests to a server

What the network hands back for one request, and how the functions of `peer_client` turn
it into a result or an exception. -/

namespace SecretWeb.Client

open SecretWeb.Python

/-- A response body by what `json.loads` makes of its bytes. -/
inductive Body where
  | document (value : Json)
  | notText
  | notJson

def loads : Body → Except PyException Json
  | .document value => .ok value
  | .notText => .error .unicodeDecodeError
  | .notJson => .error .jsonDecodeError

/-- What one request comes to: no connection, no usable HTTP answer, or a response. -/
inductive Reply where
  | osError
  | httpException
  | response (status : Nat) (body : Body)

def retrieveShare (shareUuid : String) : Reply → Except PyException Json
  | .osError => .error .osError
  | .httpException => .error .httpException
  | .response status body =>
    if status = 404 then .error (.shareNotFoundError shareUuid)
    else if status ≠ 200 then .error (.peerRequestError "retrieve_share" status)
    else loads body

def storeShare : Reply → Except PyException Unit
  | .osError => .error .osError
  | .httpException => .error .httpException
  | .response status _ =>
    if status ≠ 200 ∧ status ≠ 201 then .error (.peerRequestError "store_share" status)
    else .ok ()

def recordSecret : Reply → Except PyException Json
  | .osError => .error .osError
  | .httpException => .error .httpException
  | .response status body =>
    if status ≠ 200 ∧ status ≠ 201 then .error (.peerRequestError "record_secret" status)
    else loads body

def getSecretMetadata (name : String) : Reply → Except PyException Json
  | .osError => .error .osError
  | .httpException => .error .httpException
  | .response status body =>
    if status = 404 then .error (.secretNotFoundError name)
    else if status ≠ 200 then .error (.peerRequestError "get_secret_metadata" status)
    else loads body

/-- What the request for the index route says about a peer. -/
def isReachable : Reply → Bool
  | .response status _ => status = 200
  | _ => false

/-! ## Failed requests -/

/-- The exceptions of a request that `except (OSError, PeerRequestError)` catches. -/
def requestFailed : PyException → Bool
  | .osError | .peerRequestError _ _ => true
  | _ => false

/-- No connection, or a response with an error status. -/
def Fails : Reply → Prop
  | .osError => True
  | .httpException => False
  | .response status _ => status ≠ 200 ∧ status ≠ 201

theorem storeShare_of_fails {reply : Reply} (fails : Fails reply) :
    ∃ exception, storeShare reply = .error exception ∧ requestFailed exception = true := by
  cases reply with
  | osError => exact ⟨.osError, rfl, rfl⟩
  | httpException => cases fails
  | response status body =>
    have failed : status ≠ 200 ∧ status ≠ 201 := fails
    exact ⟨.peerRequestError "store_share" status, by rw [storeShare, if_pos failed], rfl⟩

theorem recordSecret_of_fails {reply : Reply} (fails : Fails reply) :
    ∃ exception, recordSecret reply = .error exception ∧ requestFailed exception = true := by
  cases reply with
  | osError => exact ⟨.osError, rfl, rfl⟩
  | httpException => cases fails
  | response status body =>
    have failed : status ≠ 200 ∧ status ≠ 201 := fails
    exact ⟨.peerRequestError "record_secret" status, by rw [recordSecret, if_pos failed], rfl⟩

end SecretWeb.Client
