import SecretWeb.Server.RouteSpecs

/-! # The integrity of the share store

As long as saves succeed, the entry under a uuid is the body of the first post for it that
was answered with 201, it is never changed or removed, and only the client that posted it
can read it.  The invariant relates the map to the history of the run. -/

namespace SecretWeb.Server

open SecretWeb.Python SecretWeb.Shamir SecretWeb.Machine

abbrev Step := Transition Server Request (Option (Except Failure Answer))

/-- The step is a post for this uuid that was answered with 201. -/
def storesUnder (shareUuid : String) (step : Step) : Bool :=
  match step.input, step.output with
  | .postShare posted _ _ _, some (.ok (201, _)) => posted = shareUuid
  | _, _ => false

section Routes

variable (lower : String → String) (intOf : String → Option Int)

/-- What every stored share is like, and the client it came from. -/
structure StoredShare (shareUuid : String) (entry : Json) (presented : String) : Prop where
  uuid : entry.getItem "uuid" = .ok (.str shareUuid)
  shape : ∃ record, Reads entry record ∧ 2 ≤ record.treshold ∧ record.treshold ≤ record.shares ∧
    record.keys ≠ [] ∧ ∀ point ∈ record.keys, 0 < point.1 ∧ point.1 < PRIME
  owner : ∃ owner, entry.getItem "owner" = .ok (.str owner) ∧
    lower (hostnameFromCommonName presented) = lower owner

/-- The first post for this uuid answered with 201 carried this entry. -/
def FirstPosted (history : List Step) (shareUuid : String) (entry : Json) (presented : String) : Prop :=
  ∃ first saved, history.find? (storesUnder shareUuid) = some first ∧
    first.input = .postShare shareUuid (some presented) (.ok entry) saved

/-- The invariant of the share store. -/
structure Faithful (history : List Step) (server : Server) : Prop where
  synced : server.disk.shares = server.memory.shares
  stored : ∀ shareUuid entry, Dict.get server.memory.shares shareUuid = some entry →
    ∃ presented, FirstPosted history shareUuid entry presented ∧ StoredShare lower shareUuid entry presented
  absent : ∀ shareUuid, Dict.get server.memory.shares shareUuid = none →
    history.find? (storesUnder shareUuid) = none

variable {lower intOf}

theorem storedShare_of_checkShare {shareUuid : String} {commonName : Option String}
    {body : Except Failure Json} {payload : Json}
    (checked : checkShare lower shareUuid commonName body = .ok payload) :
    ∃ presented, commonName = some presented ∧ body = .ok payload ∧
      StoredShare lower shareUuid payload presented := by
  obtain ⟨bodyRead, uuid, record, presented, owner, read, admitted, client, ownerRead, same⟩ :=
    checkShare_eq_ok checked
  refine ⟨presented, client, bodyRead, uuid, ⟨record, read, admitted.tresholdLower, admitted.tresholdUpper,
    admitted.nonempty, ?_⟩, ⟨owner, ownerRead, same⟩⟩
  intro point member
  obtain ⟨offset, inside, found⟩ := List.mem_iff_getElem.mp member
  exact (admitted.points offset point (List.getElem?_eq_some_iff.mpr ⟨inside, found⟩)).1

/-! ## One step -/

theorem FirstPosted.append {history : List Step} {shareUuid : String} {entry : Json} {presented : String}
    (first : FirstPosted history shareUuid entry presented) (later : List Step) :
    FirstPosted (history ++ later) shareUuid entry presented := by
  obtain ⟨step, saved, found, input⟩ := first
  exact ⟨step, saved, by rw [List.find?_append, found]; rfl, input⟩

theorem firstPosted_of_absent {history : List Step} {shareUuid presented : String} {entry : Json}
    {saved : Bool} {step : Step} (absent : history.find? (storesUnder shareUuid) = none)
    (stores : storesUnder shareUuid step = true)
    (posted : step.input = .postShare shareUuid (some presented) (.ok entry) saved) :
    FirstPosted (history ++ [step]) shareUuid entry presented := by
  refine ⟨step, saved, ?_, posted⟩
  rw [List.find?_append, absent]
  exact List.find?_cons_of_pos stores

/-- A step that neither stores a share nor touches a map keeps the invariant. -/
theorem Faithful.unchanged {history : List Step} {step : Step} (faithful : Faithful lower history step.before)
    (memory : step.after.memory.shares = step.before.memory.shares)
    (disk : step.after.disk.shares = step.before.disk.shares)
    (silent : ∀ shareUuid, storesUnder shareUuid step = false) :
    Faithful lower (history ++ [step]) step.after where
  synced := by rw [disk, memory, faithful.synced]
  stored := by
    intro shareUuid entry found
    rw [memory] at found
    obtain ⟨presented, first, stored⟩ := faithful.stored shareUuid entry found
    exact ⟨presented, first.append _, stored⟩
  absent := by
    intro shareUuid missing
    rw [memory] at missing
    rw [List.find?_append, faithful.absent shareUuid missing]
    simp [silent shareUuid]

/-- The step lemma. -/
theorem Faithful.step {history : List Step} {step : Step} (faithful : Faithful lower history step.before)
    (saves : ∀ shareUuid commonName body saved,
      step.input = .postShare shareUuid commonName body saved → saved = true)
    (stepped : handle lower intOf step.before step.input = (step.output, step.after)) :
    Faithful lower (history ++ [step]) step.after := by
  obtain ⟨before, input, output, after⟩ := step
  dsimp only at faithful saves stepped
  cases input with
  | postShare shareUuid commonName body saved =>
    obtain rfl := saves _ _ _ _ rfl
    simp only [handle, Prod.mk.injEq] at stepped
    obtain ⟨rfl, rfl⟩ := stepped
    cases checked : checkShare lower shareUuid commonName body with
    | error failure =>
      rw [storeShare_unchecked true checked]
      exact faithful.unchanged rfl rfl fun _ => rfl
    | ok payload =>
      rcases storeShare_checked true checked with ⟨existing, _, outcome⟩ | ⟨absent, outcome⟩
      · rw [outcome]
        cases existing.equals payload with
        | true => exact faithful.unchanged rfl rfl fun _ => rfl
        | false => exact faithful.unchanged rfl rfl fun _ => rfl
      · obtain ⟨presented, rfl, rfl, stored⟩ := storedShare_of_checkShare checked
        rw [outcome]
        refine ⟨rfl, ?_, ?_⟩
        · intro other entry found
          simp only [↓reduceIte, Dict.get_set] at found
          split at found
          · -- the entry is the one this step has stored
            rename_i same
            subst same
            cases found
            have stores : ∀ server later : Server, storesUnder other
                ⟨server, .postShare other (some presented) (.ok payload) true,
                  some (.ok (201, .dict [("status", .str "stored")])), later⟩ = true := by
              simp [storesUnder]
            exact ⟨presented, firstPosted_of_absent (faithful.absent other absent) (stores _ _) rfl, stored⟩
          · obtain ⟨earlier, first, storedEarlier⟩ := faithful.stored other entry found
            exact ⟨earlier, first.append _, storedEarlier⟩
        · intro other missing
          simp only [↓reduceIte, Dict.get_set] at missing
          split at missing
          · cases missing
          · rename_i different
            rw [List.find?_append, faithful.absent other missing]
            simp [storesUnder, Ne.symm different]
  | postSecret name commonName body now saved =>
    simp only [handle, Prod.mk.injEq] at stepped
    obtain ⟨rfl, rfl⟩ := stepped
    obtain ⟨memory, disk⟩ := @storeSecretMetadata_shares lower intOf before name commonName body now saved
    exact faithful.unchanged memory disk fun _ => rfl
  | getShare shareUuid commonName =>
    cases stepped
    exact faithful.unchanged rfl rfl fun _ => rfl
  | getSecret name commonName =>
    cases stepped
    exact faithful.unchanged rfl rfl fun _ => rfl
  | restart =>
    cases stepped
    exact faithful.unchanged faithful.synced rfl fun _ => rfl

/-- What is stored before a step is stored after it. -/
theorem Faithful.kept {history : List Step} {step : Step} (faithful : Faithful lower history step.before)
    (stepped : handle lower intOf step.before step.input = (step.output, step.after)) {shareUuid : String}
    {entry : Json} (found : Dict.get step.before.memory.shares shareUuid = some entry) :
    Dict.get step.after.memory.shares shareUuid = some entry := by
  obtain ⟨before, input, output, after⟩ := step
  dsimp only at faithful stepped found ⊢
  cases input with
  | postShare posted commonName body saved =>
    simp only [handle, Prod.mk.injEq] at stepped
    obtain ⟨rfl, rfl⟩ := stepped
    cases checked : checkShare lower posted commonName body with
    | error failure =>
      rw [storeShare_unchecked saved checked]
      exact found
    | ok payload =>
      rcases storeShare_checked saved checked with ⟨existing, _, outcome⟩ | ⟨absent, outcome⟩
      · rw [outcome]
        exact found
      · have different : shareUuid ≠ posted := by
          rintro rfl
          rw [absent] at found
          cases found
        rw [outcome]
        cases saved with
        | true => exact (Dict.get_set_ne _ _ different).trans found
        | false => exact (Dict.get_set_ne _ _ different).trans found
  | postSecret name commonName body now saved =>
    simp only [handle, Prod.mk.injEq] at stepped
    obtain ⟨rfl, rfl⟩ := stepped
    rw [(storeSecretMetadata_shares before name commonName body now saved).1]
    exact found
  | getShare requested commonName =>
    cases stepped
    exact found
  | getSecret name commonName =>
    cases stepped
    exact found
  | restart =>
    cases stepped
    show Dict.get before.disk.shares shareUuid = some entry
    rw [faithful.synced]
    exact found

/-- A share that is handed out is the stored one, and goes to its owner. -/
theorem getShare_eq_ok {server : Server} {shareUuid : String} {commonName : Option String} {status : Nat}
    {reply : Json} (answered : getShare lower server shareUuid commonName = .ok (status, reply)) :
    Dict.get server.memory.shares shareUuid = some reply ∧
      ∃ presented owner, commonName = some presented ∧ reply.getItem "owner" = .ok (.str owner) ∧
        lower (hostnameFromCommonName presented) = lower owner := by
  unfold getShare at answered
  split at answered
  · cases answered
  · rename_i share found
    split at answered
    · cases answered
    · rename_i owner ownerRead
      obtain ⟨_, matched, returned⟩ := bind_eq_ok.mp answered
      cases returned
      obtain ⟨presented, text, client, rfl, same⟩ :=
        (requireOwnerMatchesClientCert_eq_ok lower commonName owner).mp matched
      exact ⟨found, presented, text, client, ownerRead, same⟩

end Routes

/-! ## Runs -/

/-- Over every run from an empty store whose saves succeed: an entry is the body of the
first post for its uuid answered with 201 and is well formed, no later step changes or
removes it, and a get that answers 200 returns it to the client that posted it. -/
theorem share_store_integrity (lower : String → String) (intOf : String → Option Int) (server : Server)
    (empty : server.memory.shares = []) (emptyDisk : server.disk.shares = []) (requests : List Request)
    (saves : ∀ shareUuid commonName body saved,
      Request.postShare shareUuid commonName body saved ∈ requests → saved = true) :
    (∀ shareUuid entry,
      Dict.get (run (handle lower intOf) server requests).memory.shares shareUuid = some entry →
      ∃ presented, FirstPosted (transitions (handle lower intOf) server requests) shareUuid entry presented ∧
        StoredShare lower shareUuid entry presented) ∧
    (∀ step ∈ transitions (handle lower intOf) server requests, ∀ shareUuid entry,
      Dict.get step.before.memory.shares shareUuid = some entry →
      Dict.get step.after.memory.shares shareUuid = some entry) ∧
    (∀ step ∈ transitions (handle lower intOf) server requests, ∀ shareUuid commonName reply,
      step.input = .getShare shareUuid commonName → step.output = some (.ok (200, reply)) →
      Dict.get step.before.memory.shares shareUuid = some reply ∧
      ∃ reader poster, commonName = some reader ∧
        FirstPosted (transitions (handle lower intOf) server requests) shareUuid reply poster ∧
        lower (hostnameFromCommonName reader) = lower (hostnameFromCommonName poster)) := by
  have start : Faithful lower [] server := by
    refine ⟨emptyDisk.trans empty.symm, ?_, fun _ _ => rfl⟩
    intro shareUuid entry found
    rw [empty] at found
    cases found
  have allowed : ∀ step ∈ transitions (handle lower intOf) server requests,
      ∀ shareUuid commonName body saved, step.input = .postShare shareUuid commonName body saved →
        saved = true := by
    intro step member shareUuid commonName body saved posted
    have requested := input_of_mem_transitions member
    rw [posted] at requested
    exact saves shareUuid commonName body saved requested
  obtain ⟨within, last⟩ := @invariant_of_history _ _ _ (handle lower intOf) (Faithful lower) _ [] server requests
    (fun _ _ saves faithful stepped => faithful.step saves stepped) start allowed
  have before : ∀ step ∈ transitions (handle lower intOf) server requests,
      ∃ earlier later, transitions (handle lower intOf) server requests = earlier ++ step :: later ∧
        Faithful lower earlier step.before := by
    intro step member
    obtain ⟨earlier, later, shape⟩ := List.append_of_mem member
    exact ⟨earlier, later, shape, within earlier step later shape⟩
  refine ⟨last.stored, ?_, ?_⟩
  · intro step member shareUuid entry found
    obtain ⟨_, _, _, faithful⟩ := before step member
    exact faithful.kept (step_of_mem_transitions member) found
  · intro step member shareUuid commonName reply requested answered
    obtain ⟨earlier, later, shape, faithful⟩ := before step member
    have stepped := step_of_mem_transitions member
    rw [requested, answered] at stepped
    obtain ⟨found, reader, owner, client, ownerRead, same⟩ :=
      getShare_eq_ok (Option.some.inj (Prod.mk.inj stepped).1)
    obtain ⟨poster, first, stored⟩ := faithful.stored shareUuid reply found
    obtain ⟨posterOwner, posterOwnerRead, posterSame⟩ := stored.owner
    refine ⟨found, reader, poster, client, shape ▸ first.append _, ?_⟩
    obtain rfl : owner = posterOwner := by
      have owners := ownerRead.symm.trans posterOwnerRead
      simpa using owners
    exact same.trans posterSame.symm

/-- A share posted, overwritten in vain, kept over a restart and read by its owner. -/
theorem share_store_integrity_restarted :
    let share : Json := .dict [("keys", .list [.list [.int 1, .int 5]]),
      ("creation_date", .str "2026-01-01T00:00:00+00:00"), ("owner", .str "host1"), ("name", .str "wifi"),
      ("uuid", .str "u1"), ("treshold", .int 2), ("shares", .int 3), ("secret_hash", .null)]
    let server : Server := ⟨.dict [], ⟨[], []⟩, ⟨[], []⟩⟩
    let requests : List Request := [.postShare "u1" (some "host1.example.org") (.ok share) true, .restart,
      .getShare "u1" (some "host1")]
    Dict.get (run (handle id fun _ => none) server requests).memory.shares "u1" = some share ∧
      ∃ presented, StoredShare id "u1" share presented := by
  intro share server requests
  have found : Dict.get (run (handle id fun _ => none) server requests).memory.shares "u1" = some share := rfl
  obtain ⟨stored, _, _⟩ := share_store_integrity id (fun _ => none) server rfl rfl requests (by
    intro shareUuid commonName body saved requested
    simp only [requests, List.mem_cons, Request.postShare.injEq, reduceCtorEq, List.not_mem_nil, or_self,
      or_false] at requested
    exact requested.2.2.2)
  obtain ⟨presented, _, storedShare⟩ := stored "u1" share found
  exact ⟨found, presented, storedShare⟩


end SecretWeb.Server
