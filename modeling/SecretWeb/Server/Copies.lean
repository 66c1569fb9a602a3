import SecretWeb.Server.RouteSpecs

/-! # A map and its file

Each map of a server is there twice, in memory and in its file.  A step of the server
writes one entry to memory, and from there to the file unless the save raises, or it loads
the file again.  What holds of both copies is kept whatever becomes of the saves. -/

namespace SecretWeb.Server

open SecretWeb.Python

structure Copies where
  memory : Dict Json
  disk : Dict Json

namespace Copies

/-- One step, with the entry it writes. -/
inductive Step (before : Copies) : Option (String × Json) → Copies → Prop where
  | same : Step before none before
  | reload : Step before none ⟨before.disk, before.disk⟩
  | write (key : String) (value : Json) (saved : Bool) :
    Step before (some (key, value))
      ⟨Dict.set before.memory key value, if saved then Dict.set before.memory key value else before.disk⟩

/-- Both copies have an entry for the key, and it is of this kind. -/
structure Kept (copies : Copies) (key : String) (Kind : Json → Prop) : Prop where
  memory : ∃ value, Dict.get copies.memory key = some value ∧ Kind value
  disk : ∃ value, Dict.get copies.disk key = some value ∧ Kind value

/-- Any entry that a copy has for the key is of this kind. -/
structure Within (copies : Copies) (key : String) (Kind : Json → Prop) : Prop where
  memory : ∀ value, Dict.get copies.memory key = some value → Kind value
  disk : ∀ value, Dict.get copies.disk key = some value → Kind value

variable {before after : Copies} {written : Option (String × Json)} {key : String} {Kind : Json → Prop}

theorem Kept.mono {copies : Copies} {Other : Json → Prop} (kept : copies.Kept key Kind)
    (weaker : ∀ value, Kind value → Other value) : copies.Kept key Other := by
  obtain ⟨⟨inMemory, memoryFound, memoryKind⟩, ⟨onDisk, diskFound, diskKind⟩⟩ := kept
  exact ⟨⟨inMemory, memoryFound, weaker inMemory memoryKind⟩, ⟨onDisk, diskFound, weaker onDisk diskKind⟩⟩

theorem Within.mono {copies : Copies} {Other : Json → Prop} (within : copies.Within key Kind)
    (weaker : ∀ value, Kind value → Other value) : copies.Within key Other :=
  ⟨fun value found => weaker value (within.memory value found),
    fun value found => weaker value (within.disk value found)⟩

theorem Kept.step (kept : before.Kept key Kind) (stepped : Step before written after)
    (kind : ∀ value, written = some (key, value) → Kind value) : after.Kept key Kind := by
  cases stepped with
  | same => exact kept
  | reload => exact ⟨kept.disk, kept.disk⟩
  | write other value saved =>
    have inMemory : ∃ entry, Dict.get (Dict.set before.memory other value) key = some entry ∧ Kind entry := by
      by_cases same : key = other
      · subst same
        exact ⟨value, Dict.get_set_self _ _ _, kind value rfl⟩
      · rw [Dict.get_set_ne _ _ same]
        exact kept.memory
    cases saved with
    | true => exact ⟨inMemory, inMemory⟩
    | false => exact ⟨inMemory, kept.disk⟩

theorem Within.step (within : before.Within key Kind) (stepped : Step before written after)
    (kind : ∀ value, written = some (key, value) → Kind value) : after.Within key Kind := by
  cases stepped with
  | same => exact within
  | reload => exact ⟨within.disk, within.disk⟩
  | write other value saved =>
    have inMemory : ∀ entry, Dict.get (Dict.set before.memory other value) key = some entry → Kind entry := by
      intro entry found
      by_cases same : key = other
      · subst same
        rw [Dict.get_set_self] at found
        cases found
        exact kind value rfl
      · rw [Dict.get_set_ne _ _ same] at found
        exact within.memory entry found
    cases saved with
    | true => exact ⟨inMemory, inMemory⟩
    | false => exact ⟨inMemory, within.disk⟩

/-- A step that writes only where memory has nothing keeps every entry that both copies
have. -/
theorem Kept.step_of_absent (kept : before.Kept key Kind) (stepped : Step before written after)
    (absent : ∀ other value, written = some (other, value) → Dict.get before.memory other = none) :
    after.Kept key Kind := by
  apply kept.step stepped
  intro value wrote
  obtain ⟨entry, found, _⟩ := kept.memory
  cases (absent key value wrote).symm.trans found

end Copies

def shareCopies (server : Server) : Copies := ⟨server.memory.shares, server.disk.shares⟩

def secretCopies (server : Server) : Copies := ⟨server.memory.secrets, server.disk.secrets⟩

section Routes

variable {lower : String → String} {intOf : String → Option Int} {server after : Server}

/-! ## The two maps under the routes -/

/-- A share is written only where memory has none. -/
theorem storeShare_copies {shareUuid : String} {commonName : Option String} {body : Except Failure Json}
    {saved : Bool} {answer : Except Failure Answer}
    (stored : storeShare lower server shareUuid commonName body saved = (answer, after)) :
    after.hosts = server.hosts ∧ secretCopies after = secretCopies server ∧
    ∃ written, Copies.Step (shareCopies server) written (shareCopies after) ∧
      ∀ key value, written = some (key, value) →
      key = shareUuid ∧ body = .ok value ∧ Dict.get server.memory.shares key = none := by
  cases checked : checkShare lower shareUuid commonName body with
  | error failure =>
    rw [storeShare_unchecked saved checked] at stored
    cases stored
    exact ⟨rfl, rfl, none, .same, by simp⟩
  | ok payload =>
    cases storeShare_checked saved checked with
    | inl present =>
      obtain ⟨existing, _, outcome⟩ := present
      rw [outcome] at stored
      cases stored
      exact ⟨rfl, rfl, none, .same, by simp⟩
    | inr fresh =>
      obtain ⟨absent, outcome⟩ := fresh
      have wrote : ∀ key value, some (shareUuid, payload) = some (key, value) →
          key = shareUuid ∧ body = .ok value ∧ Dict.get server.memory.shares key = none := by
        intro key value same
        cases same
        exact ⟨rfl, (checkShare_eq_ok checked).1, absent⟩
      rw [outcome] at stored
      cases saved with
      | true =>
        cases stored
        exact ⟨rfl, rfl, some (shareUuid, payload), .write shareUuid payload true, wrote⟩
      | false =>
        cases stored
        exact ⟨rfl, rfl, some (shareUuid, payload), .write shareUuid payload false, wrote⟩

/-- A share that is acknowledged is in memory and on disk, or memory had its equal. -/
theorem storeShare_acknowledged {shareUuid : String} {commonName : Option String} {body : Except Failure Json}
    {saved : Bool} {answer : Answer}
    (stored : storeShare lower server shareUuid commonName body saved = (.ok answer, after)) :
    ∃ payload, body = .ok payload ∧ ((shareCopies after).Kept shareUuid (· = payload) ∨
      ∃ existing, Dict.get server.memory.shares shareUuid = some existing ∧ existing.equals payload = true) := by
  cases checked : checkShare lower shareUuid commonName body with
  | error failure =>
    rw [storeShare_unchecked saved checked] at stored
    cases stored
  | ok payload =>
    have bodyRead := (checkShare_eq_ok checked).1
    cases storeShare_checked saved checked with
    | inl present =>
      obtain ⟨existing, found, outcome⟩ := present
      rw [outcome] at stored
      cases same : existing.equals payload with
      | true => exact ⟨payload, bodyRead, .inr ⟨existing, found, same⟩⟩
      | false =>
        rw [same] at stored
        cases stored
    | inr fresh =>
      rw [fresh.2] at stored
      cases saved with
      | true =>
        cases stored
        exact ⟨payload, bodyRead, .inl ⟨⟨payload, Dict.get_set_self _ _ _, rfl⟩,
          ⟨payload, Dict.get_set_self _ _ _, rfl⟩⟩⟩
      | false => cases stored

theorem storeSecretMetadata_copies {name : String} {commonName : Option String} {body : Except Failure Json}
    {now : String} {saved : Bool} {answer : Except Failure Answer}
    (stored : storeSecretMetadata lower intOf server name commonName body now saved = (answer, after)) :
    after.hosts = server.hosts ∧ shareCopies after = shareCopies server ∧
    ∃ written, Copies.Step (secretCopies server) written (secretCopies after) ∧
      ∀ key value, written = some (key, value) →
      key = name ∧ checkMetadata lower intOf server commonName body now = .ok value := by
  cases checked : checkMetadata lower intOf server commonName body now with
  | error failure =>
    rw [storeSecretMetadata_unchecked saved checked] at stored
    cases stored
    exact ⟨rfl, rfl, none, .same, by simp⟩
  | ok record =>
    have wrote : ∀ key value, some (name, record) = some (key, value) →
        key = name ∧ (.ok record : Except Failure Json) = .ok value := by
      intro key value same
      cases same
      exact ⟨rfl, rfl⟩
    rw [storeSecretMetadata_checked saved checked] at stored
    cases saved with
    | true =>
      cases stored
      exact ⟨rfl, rfl, some (name, record), .write name record true, wrote⟩
    | false =>
      cases stored
      exact ⟨rfl, rfl, some (name, record), .write name record false, wrote⟩

/-! ## The two maps over one step of a server -/

variable {request : Request} {output : Option (Except Failure Answer)}

theorem handle_hosts (stepped : handle lower intOf server request = (output, after)) :
    after.hosts = server.hosts := by
  cases request with
  | postShare shareUuid commonName body saved =>
    cases stepped
    exact (storeShare_copies (Prod.eta (storeShare lower server shareUuid commonName body saved)).symm).1
  | postSecret name commonName body now saved =>
    cases stepped
    exact (storeSecretMetadata_copies
      (Prod.eta (storeSecretMetadata lower intOf server name commonName body now saved)).symm).1
  | getShare shareUuid commonName =>
    cases stepped
    rfl
  | getSecret name commonName =>
    cases stepped
    rfl
  | restart =>
    cases stepped
    rfl

theorem handle_shares (stepped : handle lower intOf server request = (output, after)) :
    ∃ written, Copies.Step (shareCopies server) written (shareCopies after) ∧
      ∀ key value, written = some (key, value) →
      Dict.get server.memory.shares key = none ∧
      ∃ commonName saved, request = .postShare key commonName (.ok value) saved := by
  cases request with
  | postShare shareUuid commonName body saved =>
    cases stepped
    obtain ⟨_, _, written, copied, wrote⟩ :=
      storeShare_copies (Prod.eta (storeShare lower server shareUuid commonName body saved)).symm
    refine ⟨written, copied, fun key value same => ?_⟩
    obtain ⟨rfl, rfl, absent⟩ := wrote key value same
    exact ⟨absent, commonName, saved, rfl⟩
  | postSecret name commonName body now saved =>
    cases stepped
    obtain ⟨_, unchanged, _⟩ := storeSecretMetadata_copies
      (Prod.eta (storeSecretMetadata lower intOf server name commonName body now saved)).symm
    exact ⟨none, unchanged ▸ .same, by simp⟩
  | getShare shareUuid commonName =>
    cases stepped
    exact ⟨none, .same, by simp⟩
  | getSecret name commonName =>
    cases stepped
    exact ⟨none, .same, by simp⟩
  | restart =>
    cases stepped
    exact ⟨none, .reload, by simp⟩

theorem handle_secrets (stepped : handle lower intOf server request = (output, after)) :
    ∃ written, Copies.Step (secretCopies server) written (secretCopies after) ∧
      ∀ key value, written = some (key, value) →
      ∃ commonName body now saved, request = .postSecret key commonName body now saved ∧
        checkMetadata lower intOf server commonName body now = .ok value := by
  cases request with
  | postShare shareUuid commonName body saved =>
    cases stepped
    obtain ⟨_, unchanged, _⟩ :=
      storeShare_copies (Prod.eta (storeShare lower server shareUuid commonName body saved)).symm
    exact ⟨none, unchanged ▸ .same, by simp⟩
  | postSecret name commonName body now saved =>
    cases stepped
    obtain ⟨_, _, written, copied, wrote⟩ := storeSecretMetadata_copies
      (Prod.eta (storeSecretMetadata lower intOf server name commonName body now saved)).symm
    refine ⟨written, copied, fun key value same => ?_⟩
    obtain ⟨rfl, checked⟩ := wrote key value same
    exact ⟨commonName, body, now, saved, rfl, checked⟩
  | getShare shareUuid commonName =>
    cases stepped
    exact ⟨none, .same, by simp⟩
  | getSecret name commonName =>
    cases stepped
    exact ⟨none, .same, by simp⟩
  | restart =>
    cases stepped
    exact ⟨none, .reload, by simp⟩

end Routes

end SecretWeb.Server
