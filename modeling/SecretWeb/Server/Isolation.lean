import SecretWeb.Server.Copies

/-! # What one owner's requests depend on

The map of shares is keyed by uuid alone.  So what a client gets to hear about a uuid
depends on its own requests for that uuid and on the one entry under it, and on other
owners exactly as far as they get to put that entry there. -/

namespace SecretWeb.Server

open SecretWeb.Python SecretWeb.Machine

section Isolation

variable (lower : String → String) (intOf : String → Option Int) (host uuid : String)

/-- A request to one of the two routes for shares. -/
def ofShares : Request → Bool
  | .postShare _ _ _ _ | .getShare _ _ => true
  | _ => false

/-- The client's certificate is that of the host, and it asks about this uuid. -/
def asks : Request → Bool
  | .postShare shareUuid commonName _ _ | .getShare shareUuid commonName =>
    shareUuid = uuid ∧ commonName.any fun presented => lower (hostnameFromCommonName presented) = lower host
  | _ => false

/-- Somebody else's certificate, or none. -/
def byOthers : Request → Bool
  | .postShare _ commonName _ _ | .getShare _ commonName =>
    !commonName.any fun presented => lower (hostnameFromCommonName presented) = lower host
  | _ => false

/-- What the host gets to hear about the uuid, in the order of its requests. -/
def responses (server : Server) (requests : List Request) : List (Option (Except Failure Answer)) :=
  ((transitions (handle lower intOf) server requests).filter fun step => asks lower host uuid step.input).map
    Transition.output

/-- A request of somebody else that puts an entry under the uuid, or changes it. -/
def Occupies (step : Transition Server Request (Option (Except Failure Answer))) : Prop :=
  byOthers lower host step.input = true ∧
    Dict.get step.after.memory.shares uuid ≠ Dict.get step.before.memory.shares uuid

/-- A server cut down to one entry of its map. -/
def slotServer (entry : Option Json) : Server where
  hosts := .null
  memory := ⟨(entry.map fun share => (uuid, share)).toList, []⟩
  disk := ⟨[], []⟩

def slotStep (entry : Option Json) (request : Request) : Option (Except Failure Answer) × Option Json :=
  let (answer, after) := handle lower intOf (slotServer uuid entry) request
  (answer, Dict.get after.memory.shares uuid)

variable {lower intOf host uuid}

@[simp] theorem get_slotServer (entry : Option Json) :
    Dict.get (slotServer uuid entry).memory.shares uuid = entry := by
  cases entry with
  | none => rfl
  | some share => simp [slotServer, Dict.get_cons]

/-- The answer to a request about the uuid, and the entry it leaves, come from the entry. -/
theorem handle_slot (server : Server) {request : Request} (asked : asks lower host uuid request = true) :
    slotStep lower intOf uuid (Dict.get server.memory.shares uuid) request =
      ((handle lower intOf server request).1,
        Dict.get (handle lower intOf server request).2.memory.shares uuid) := by
  cases request with
  | postShare shareUuid commonName body saved =>
    simp only [asks, decide_eq_true_eq] at asked
    obtain rfl := asked.1
    simp only [slotStep, handle]
    cases checked : checkShare lower shareUuid commonName body with
    | error failure => simp only [storeShare_unchecked saved checked, get_slotServer]
    | ok payload =>
      cases present : Dict.get server.memory.shares shareUuid with
      | some existing =>
        have both : ∀ any : Server, Dict.get any.memory.shares shareUuid = some existing →
            storeShare lower any shareUuid commonName body saved =
              (if existing.equals payload then .ok (200, .dict [("status", .str "already-stored")])
                else .error (.aborted 409 "a different share is already stored for this uuid"), any) := by
          intro any found
          cases storeShare_checked saved checked with
          | inl outcome =>
            obtain ⟨other, otherFound, same⟩ := outcome
            cases found.symm.trans otherFound
            exact same
          | inr absent => cases found.symm.trans absent.1
        rw [both _ (get_slotServer _), both server present]
        simp only [get_slotServer, present]
      | none =>
        have both : ∀ any : Server, Dict.get any.memory.shares shareUuid = none →
            (storeShare lower any shareUuid commonName body saved).1 =
              (if saved then .ok (201, .dict [("status", .str "stored")]) else .error (.raised .osError)) ∧
            Dict.get (storeShare lower any shareUuid commonName body saved).2.memory.shares shareUuid =
              some payload := by
          intro any found
          cases storeShare_checked saved checked with
          | inl outcome =>
            obtain ⟨other, otherFound, _⟩ := outcome
            cases found.symm.trans otherFound
          | inr absent =>
            rw [absent.2]
            cases saved with
            | true => exact ⟨rfl, Dict.get_set_self _ _ _⟩
            | false => exact ⟨rfl, Dict.get_set_self _ _ _⟩
        rw [(both _ (get_slotServer none)).1, (both _ (get_slotServer none)).2, (both server present).1,
          (both server present).2]
  | getShare shareUuid commonName =>
    simp only [asks, decide_eq_true_eq] at asked
    obtain rfl := asked.1
    simp only [slotStep, handle, getShare, get_slotServer]
  | postSecret name commonName body now saved => cases asked
  | getSecret name commonName => cases asked
  | restart => cases asked

/-- A request that is not about the uuid leaves its entry alone. -/
theorem entry_kept {server : Server} {request : Request} (routes : ofShares request = true)
    (other : asks lower host uuid request = false) (mine : byOthers lower host request = false) :
    Dict.get (handle lower intOf server request).2.memory.shares uuid = Dict.get server.memory.shares uuid := by
  cases request with
  | postShare shareUuid commonName body saved =>
    have different : uuid ≠ shareUuid := by
      rintro rfl
      simp only [byOthers, Bool.not_eq_false'] at mine
      simp [asks, mine] at other
    show Dict.get (storeShare lower server shareUuid commonName body saved).2.memory.shares uuid = _
    cases checked : checkShare lower shareUuid commonName body with
    | error failure => rw [storeShare_unchecked saved checked]
    | ok payload =>
      cases storeShare_checked saved checked with
      | inl present =>
        obtain ⟨existing, _, outcome⟩ := present
        rw [outcome]
      | inr absent =>
        rw [absent.2]
        cases saved with
        | true => exact Dict.get_set_ne _ _ different
        | false => exact Dict.get_set_ne _ _ different
  | getShare shareUuid commonName => rfl
  | postSecret name commonName body now saved => cases routes
  | getSecret name commonName => cases routes
  | restart => cases routes

/-- The run lemma: the responses are those of the one entry to the host's own requests. -/
theorem responses_slot {server : Server} {requests : List Request} (routes : ∀ request ∈ requests, ofShares request)
    (free : ∀ step ∈ transitions (handle lower intOf) server requests, ¬Occupies lower host uuid step) :
    responses lower intOf host uuid server requests =
      (transitions (slotStep lower intOf uuid) (Dict.get server.memory.shares uuid)
        (requests.filter (asks lower host uuid))).map Transition.output := by
  induction requests generalizing server with
  | nil => rfl
  | cons request rest inductionHypothesis =>
    have later := @inductionHypothesis (handle lower intOf server request).2
      (fun other member => routes other (List.mem_cons_of_mem _ member))
      (fun step member => free step (List.mem_cons_of_mem _ member))
    rw [responses] at later ⊢
    cases asked : asks lower host uuid request with
    | true =>
      have slot := @handle_slot lower intOf host uuid server request asked
      rw [transitions, List.filter_cons_of_pos (by exact asked), List.filter_cons_of_pos asked, transitions,
        List.map_cons, List.map_cons, slot, later]
    | false =>
      have kept : Dict.get (handle lower intOf server request).2.memory.shares uuid =
          Dict.get server.memory.shares uuid := by
        cases others : byOthers lower host request with
        | true =>
          by_contra changed
          exact free _ List.mem_cons_self ⟨others, changed⟩
        | false => exact entry_kept (routes request List.mem_cons_self) asked others
      have skip : ¬asks lower host uuid request = true := by simp [asked]
      rw [transitions, List.filter_cons_of_neg (by exact skip), List.filter_cons_of_neg skip, later, kept]

end Isolation

/-- Two runs of the routes for shares with the same requests of one host for a uuid, in
which nobody else puts an entry under that uuid, give the host the same responses. -/
theorem owners_isolated (lower : String → String) (intOf : String → Option Int) (host uuid : String)
    (server : Server) (left right : List Request) (leftRoutes : ∀ request ∈ left, ofShares request)
    (rightRoutes : ∀ request ∈ right, ofShares request)
    (same : left.filter (asks lower host uuid) = right.filter (asks lower host uuid))
    (leftFree : ∀ step ∈ transitions (handle lower intOf) server left, ¬Occupies lower host uuid step)
    (rightFree : ∀ step ∈ transitions (handle lower intOf) server right, ¬Occupies lower host uuid step) :
    responses lower intOf host uuid server left = responses lower intOf host uuid server right := by
  rw [responses_slot leftRoutes leftFree, responses_slot rightRoutes rightFree, same]

/-! ## Two hosts and one uuid -/

/-- A share of a secret of the owner under `u1`, posted by the owner. -/
def ownPost (owner uuid : String) : Request :=
  .postShare uuid (some owner) (.ok (.dict [("keys", .list [.list [.int 1, .int 5]]),
    ("creation_date", .str "2026-01-01T00:00:00+00:00"), ("owner", .str owner), ("name", .str "wifi"),
    ("uuid", .str uuid), ("treshold", .int 2), ("shares", .int 3), ("secret_hash", .null)])) true

def emptyServer : Server := ⟨.dict [], ⟨[], []⟩, ⟨[], []⟩⟩

/-- What `host2` does under another uuid is nothing to `host1`. -/
theorem owners_isolated_apart :
    responses id (fun _ => none) "host1" "u1" emptyServer
        [ownPost "host2" "u2", ownPost "host1" "u1", .getShare "u1" (some "host2"), .getShare "u1" (some "host1")] =
      responses id (fun _ => none) "host1" "u1" emptyServer
        [ownPost "host1" "u1", .getShare "u1" (some "host1")] := by
  refine owners_isolated id (fun _ => none) "host1" "u1" emptyServer _ _ (by decide) (by decide) rfl ?_ ?_
  · intro step member
    simp only [transitions, List.mem_cons, List.not_mem_nil, or_false] at member
    rcases member with rfl | rfl | rfl | rfl
    · exact fun occupies => occupies.2 rfl
    · exact fun occupies => absurd occupies.1 (by decide)
    · exact fun occupies => occupies.2 rfl
    · exact fun occupies => absurd occupies.1 (by decide)
  · intro step member
    simp only [transitions, List.mem_cons, List.not_mem_nil, or_false] at member
    rcases member with rfl | rfl
    · exact fun occupies => absurd occupies.1 (by decide)
    · exact fun occupies => absurd occupies.1 (by decide)

/-- `host2` stores a share of its own under `u1` first: the post of `host1` is refused, and
so is its read. -/
theorem owners_collide :
    [ownPost "host1" "u1", .getShare "u1" (some "host1")].filter (asks id "host1" "u1") =
      [ownPost "host2" "u1", ownPost "host1" "u1", .getShare "u1" (some "host1")].filter (asks id "host1" "u1") ∧
    (responses id (fun _ => none) "host1" "u1" emptyServer
      [ownPost "host1" "u1", .getShare "u1" (some "host1")]).map (Option.map Except.toBool) =
        [some true, some true] ∧
    responses id (fun _ => none) "host1" "u1" emptyServer
        [ownPost "host2" "u1", ownPost "host1" "u1", .getShare "u1" (some "host1")] =
      [some (.error (.aborted 409 "a different share is already stored for this uuid")),
        some (.error (.aborted 403 "owner does not match client certificate identity"))] :=
  ⟨rfl, rfl, rfl⟩

end SecretWeb.Server
