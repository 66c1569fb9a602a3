import SecretWeb.Python.Json

/-! # Whom a request comes from

A request reaches a route with the common name of the client's verified certificate.
Owners are compared with its leftmost label, case aside.  `lower` is `str.lower`. -/

namespace SecretWeb.Server

open SecretWeb.Python

/-- How a route ends other than by returning: `bottle.abort`, or an exception that the
framework answers with status 500. -/
inductive Failure where
  | aborted (status : Nat) (text : String)
  | raised (exception : PyException)
deriving DecidableEq

/-- `common_name.split(".", 1)[0]`. -/
def hostnameFromCommonName (commonName : String) : String :=
  String.ofList (commonName.toList.takeWhile (· ≠ '.'))

section Identity

variable (lower : String → String)

def requireOwnerMatchesClientCert (commonName : Option String) (owner : Json) : Except Failure Unit :=
  match commonName with
  | none => .error (.aborted 403 "no client certificate identity available")
  | some commonName =>
    match owner with
    | .str owner =>
      if lower (hostnameFromCommonName commonName) ≠ lower owner then
        .error (.aborted 403 "owner does not match client certificate identity")
      else .ok ()
    | _ => .error (.raised (.attributeError "lower"))

/-- The one spec of the owner check. -/
theorem requireOwnerMatchesClientCert_eq_ok (commonName : Option String) (owner : Json) :
    requireOwnerMatchesClientCert lower commonName owner = .ok () ↔
      ∃ presented text, commonName = some presented ∧ owner = .str text ∧
        lower (hostnameFromCommonName presented) = lower text := by
  unfold requireOwnerMatchesClientCert
  cases commonName with
  | none => simp
  | some presented =>
    cases owner with
    | str text =>
      by_cases same : lower (hostnameFromCommonName presented) = lower text
      · simp [same]
      · simp [same]
    | _ => simp

end Identity

end SecretWeb.Server
