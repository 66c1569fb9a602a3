import SecretWeb.Python.Json

/-! # The plaintext host list

`hosts.json` as `load_hosts_json` returns it, and what the program reads off it: which
entry is this host, and which others it trusts.  An entry is handed out as the dictionary
`{"name": name, **record}`. -/

namespace SecretWeb.HostsData

open SecretWeb.Python

def UNTRUSTED_STATUSES : List String := ["compromised", "deleted", "disappeared"]

/-- `hosts_data.get("hosts", {}).items()`. -/
def hostItems (hostsData : Json) : Except PyException (Dict Json) :=
  match hostsData with
  | .dict entries =>
    match Dict.get entries "hosts" with
    | none => .ok []
    | some (.dict items) => .ok items
    | some _ => .error (.attributeError "items")
  | _ => .error (.attributeError "get")

/-- `{"name": name, **record}`: a record with a name of its own overrides the key. -/
def namedEntry (name : String) (record : Dict Json) : Json :=
  .dict (record.foldl (fun entry (key, value) => Dict.set entry key value) [("name", .str name)])

def findLocal : Dict Json → Except PyException Json
  | [] => .error .ownHostNotFoundError
  | (name, record) :: rest => do
    let status ← record.getOptional "status"
    if status.equals (.str "local") then return namedEntry name (record.asDict.getD [])
    else findLocal rest

def ownHostEntry (hostsData : Json) : Except PyException Json := do
  let items ← hostItems hostsData
  findLocal items

/-- `status in UNTRUSTED_STATUSES`, a set membership test. -/
def isUntrusted (status : Json) : Except PyException Bool :=
  if status.hashable then .ok (UNTRUSTED_STATUSES.any fun untrusted => status.equals (.str untrusted))
  else .error .typeError

def collectTrusted (ownName : Json) : Dict Json → Except PyException (List Json)
  | [] => .ok []
  | (name, record) :: rest => do
    if (Json.str name).equals ownName then collectTrusted ownName rest
    else
      let status ← record.getOptional "status"
      if ← isUntrusted status then collectTrusted ownName rest
      else
        let peers ← collectTrusted ownName rest
        return namedEntry name (record.asDict.getD []) :: peers

def trustedPeers (hostsData : Json) (ownName : Json) : Except PyException (List Json) := do
  let items ← hostItems hostsData
  collectTrusted ownName items

/-! ## Entries -/

theorem get_update_of_none (record : Dict Json) (entry : Dict Json) {key : String}
    (absent : Dict.get record key = none) :
    Dict.get (record.foldl (fun entry (field : String × Json) => Dict.set entry field.1 field.2) entry) key =
      Dict.get entry key := by
  induction record generalizing entry with
  | nil => rfl
  | cons field rest inductionHypothesis =>
    obtain ⟨name, value⟩ := field
    rw [Dict.get_cons] at absent
    by_cases same : key = name
    · rw [if_pos same] at absent
      cases absent
    · rw [if_neg same] at absent
      rw [List.foldl_cons, inductionHypothesis _ absent, Dict.get_set_ne _ _ same]

theorem isSome_get_update (record : Dict Json) (entry : Dict Json) {key : String}
    (present : (Dict.get record key).isSome = true ∨ (Dict.get entry key).isSome = true) :
    (Dict.get (record.foldl (fun entry (field : String × Json) => Dict.set entry field.1 field.2) entry)
      key).isSome = true := by
  induction record generalizing entry with
  | nil =>
    cases present with
    | inl impossible => cases impossible
    | inr before => exact before
  | cons field rest inductionHypothesis =>
    obtain ⟨name, value⟩ := field
    rw [List.foldl_cons]
    apply inductionHypothesis
    rw [Dict.get_set]
    rw [Dict.get_cons] at present
    by_cases same : key = name
    · exact .inr (by rw [if_pos same]; rfl)
    · rw [if_neg same] at present ⊢
      exact present

theorem getItem_name_namedEntry (name : String) {record : Dict Json} (absent : Dict.get record "name" = none) :
    (namedEntry name record).getItem "name" = .ok (.str name) := by
  rw [namedEntry, Json.getItem_dict, get_update_of_none record _ absent]
  rfl

theorem getItem_address_namedEntry (name : String) {record : Dict Json}
    (present : (Dict.get record "address").isSome = true) :
    ∃ address, (namedEntry name record).getItem "address" = .ok address := by
  obtain ⟨address, found⟩ := Option.isSome_iff_exists.mp
    (isSome_get_update record [("name", .str name)] (.inl present))
  exact ⟨address, Json.getItem_dict_eq_ok.mpr found⟩

theorem getItem_name_of_namedEntry (name : String) (record : Dict Json) :
    ∃ own, (namedEntry name record).getItem "name" = .ok own := by
  obtain ⟨own, found⟩ := Option.isSome_iff_exists.mp
    (@isSome_get_update record [("name", .str name)] "name" (.inr rfl))
  exact ⟨own, Json.getItem_dict_eq_ok.mpr found⟩

/-- The entry of this host has a name. -/
theorem getItem_name_of_ownHostEntry {hostsData entry : Json} (found : ownHostEntry hostsData = .ok entry) :
    ∃ own, entry.getItem "name" = .ok own := by
  obtain ⟨items, read, localFound⟩ := bind_eq_ok.mp found
  clear found read
  induction items with
  | nil => cases localFound
  | cons item rest inductionHypothesis =>
    obtain ⟨name, record⟩ := item
    obtain ⟨status, _, afterStatus⟩ := bind_eq_ok.mp localFound
    split at afterStatus
    · cases afterStatus
      exact getItem_name_of_namedEntry name _
    · exact inductionHypothesis afterStatus

end SecretWeb.HostsData
