import SecretWeb.HostsData
import SecretWeb.Server.Identity

/-! # The host list that setup collects

Every host is typed in on every host's terminal; setup finds its own entry by the identity
in its certificate and writes the list out as `hosts.json`. -/

namespace SecretWeb.Setup

open SecretWeb.Python SecretWeb.Server

/-- One answer of `_prompt_host`; at least one address has been typed in. -/
structure Host where
  name : String
  firstAddress : String
  otherAddresses : List String
  role : String

def Host.addresses (host : Host) : List String := host.firstAddress :: host.otherAddresses

/-- `_match_own_host`; aborting is `SystemExit(1)`. -/
def matchOwnHost : List Host → (ownHostname : String) → Except PyException String
  | [], _ => .error (.systemExit 1)
  | host :: rest, ownHostname =>
    if hostnameFromCommonName host.name = ownHostname then .ok host.name
    else matchOwnHost rest ownHostname

def hostRecord (host : Host) (ownName : String) (ownPort : Int) (now : String) : Json :=
  .dict [("address", .str host.firstAddress),
    ("all_addresses", .list (host.addresses.map Json.str)), ("port", .int ownPort),
    ("role", .str host.role), ("status", .str (if host.name = ownName then "local" else "default")),
    ("site", .str ""), ("online", .str "unknown"), ("last_updated", .str now)]

/-- `records[host["name"]] = {...}` for every host in turn. -/
def buildHostsData (hosts : List Host) (ownName : String) (ownPort : Int) (now : String) : Json :=
  .dict [("hosts", .dict (hosts.foldl
    (fun records host => Dict.set records host.name (hostRecord host ownName ownPort now)) []))]

def sharesAndTreshold {α : Type} (otherHosts : List α) : Int × Int :=
  let shares : Int := otherHosts.length
  (shares, shares / 2 + 1)

end SecretWeb.Setup
