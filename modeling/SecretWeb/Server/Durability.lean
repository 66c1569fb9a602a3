import SecretWeb.Server.RouteSpecs

/-! # What an acknowledgement is worth

Both routes change the map in memory before they write it and take nothing back when the
write raises.  A run therefore keeps memory and disk together, and its acknowledgements
durable, exactly as long as no write fails that would have changed anything. -/

namespace SecretWeb.Server

open SecretWeb.Python SecretWeb.Machine

section Routes

variable (lower : String → String) (intOf : String → Option Int)

/-- The request gets as far as its save, and the save raises. -/
def SaveRaises (server : Server) : Request → Prop
  | .postShare shareUuid commonName body saved =>
    saved = false ∧ (∃ payload, checkShare lower shareUuid commonName body = .ok payload) ∧
      Dict.get server.memory.shares shareUuid = none
  | .postSecret _ commonName body now saved =>
    saved = false ∧ ∃ record, checkMetadata lower intOf server commonName body now = .ok record
  | _ => False

/-- The request writes nothing but what memory already holds. -/
def Rewrites (server : Server) : Request → Prop
  | .postSecret name commonName body now _ =>
    ∀ record, checkMetadata lower intOf server commonName body now = .ok record →
      Dict.get server.memory.secrets name = some record
  | _ => False

/-- An acknowledged share or record is on disk, and a save that raises changes no map. -/
structure Durable (step : Transition Server Request (Option (Except Failure Answer))) : Prop where
  share : ∀ shareUuid commonName payload saved status reply,
    step.input = .postShare shareUuid commonName (.ok payload) saved →
    step.output = some (.ok (status, reply)) → status = 200 ∨ status = 201 →
    ∃ stored, Dict.get step.after.disk.shares shareUuid = some stored ∧
      (stored = payload ∨ status = 200 ∧ stored.equals payload = true)
  secret : ∀ name commonName body now saved record,
    step.input = .postSecret name commonName body now saved →
    step.output = some (.ok (201, record)) → Dict.get step.after.disk.secrets name = some record
  failed : SaveRaises lower intOf step.before step.input → step.after.memory = step.before.memory

variable {lower intOf}

/-! ## One step -/

/-- A posted share answers for that share, and for a save that raises. -/
theorem durable_of_postShare {step : Transition Server Request (Option (Except Failure Answer))} {shareUuid : String}
    {commonName : Option String} {body : Except Failure Json} {saved : Bool}
    (posted : step.input = .postShare shareUuid commonName body saved)
    (share : ∀ payload status reply, body = .ok payload → step.output = some (.ok (status, reply)) →
      status = 200 ∨ status = 201 →
      ∃ stored, Dict.get step.after.disk.shares shareUuid = some stored ∧
        (stored = payload ∨ status = 200 ∧ stored.equals payload = true))
    (failed : SaveRaises lower intOf step.before step.input → step.after.memory = step.before.memory) :
    Durable lower intOf step := by
  refine ⟨?_, ?_, failed⟩
  · intro _ _ payload _ status reply request answered acknowledged
    rw [posted] at request
    cases request
    exact share payload status reply rfl answered acknowledged
  · intro _ _ _ _ _ _ request
    rw [posted] at request
    cases request

/-- Posted metadata answers for that record, and for a save that raises. -/
theorem durable_of_postSecret {step : Transition Server Request (Option (Except Failure Answer))} {name : String}
    {commonName : Option String} {body : Except Failure Json} {now : String} {saved : Bool}
    (posted : step.input = .postSecret name commonName body now saved)
    (secret : ∀ record, step.output = some (.ok (201, record)) →
      Dict.get step.after.disk.secrets name = some record)
    (failed : SaveRaises lower intOf step.before step.input → step.after.memory = step.before.memory) :
    Durable lower intOf step := by
  refine ⟨?_, ?_, failed⟩
  · intro _ _ _ _ _ _ request
    rw [posted] at request
    cases request
  · intro _ _ _ _ _ record request answered
    rw [posted] at request
    cases request
    exact secret record answered

/-- Every other request acknowledges nothing and saves nothing. -/
theorem durable_of_neither {step : Transition Server Request (Option (Except Failure Answer))}
    (noShare : ∀ shareUuid commonName body saved, step.input ≠ .postShare shareUuid commonName body saved)
    (noSecret : ∀ name commonName body now saved, step.input ≠ .postSecret name commonName body now saved) :
    Durable lower intOf step := by
  refine ⟨?_, ?_, ?_⟩
  · intro _ _ _ _ _ _ request
    exact absurd request (noShare _ _ _ _)
  · intro _ _ _ _ _ _ request
    exact absurd request (noSecret _ _ _ _ _)
  · intro raises
    cases asked : step.input with
    | postShare shareUuid commonName body saved => exact absurd asked (noShare _ _ _ _)
    | postSecret name commonName body now saved => exact absurd asked (noSecret _ _ _ _ _)
    | getShare | getSecret | restart =>
      rw [asked] at raises
      exact raises.elim

theorem durable_storeShare {before after : Server} {shareUuid : String} {commonName : Option String}
    {body : Except Failure Json} {saved : Bool} {answer : Except Failure Answer} (synced : before.memory = before.disk)
    (stepped : storeShare lower before shareUuid commonName body saved = (answer, after))
    (harmless : ¬SaveRaises lower intOf before (.postShare shareUuid commonName body saved)) :
    Durable lower intOf ⟨before, .postShare shareUuid commonName body saved, some answer, after⟩ ∧
      after.memory = after.disk := by
  cases checked : checkShare lower shareUuid commonName body with
  | error failure =>
    rw [storeShare_unchecked saved checked] at stepped
    cases stepped
    refine ⟨durable_of_postShare rfl ?_ fun _ => rfl, synced⟩
    intro _ _ _ _ answered
    cases answered
  | ok payload =>
    have bodyRead := (checkShare_eq_ok checked).1
    rcases storeShare_checked saved checked with ⟨existing, found, outcome⟩ | ⟨absent, outcome⟩
    · rw [outcome] at stepped
      cases stepped
      refine ⟨durable_of_postShare rfl ?_ fun _ => rfl, synced⟩
      intro posted status reply read answered _
      cases bodyRead.symm.trans read
      rw [synced] at found
      refine ⟨existing, found, .inr ?_⟩
      cases same : existing.equals payload with
      | true =>
        rw [same] at answered
        cases answered
        exact ⟨rfl, rfl⟩
      | false =>
        rw [same] at answered
        cases answered
    · rw [outcome] at stepped
      cases saved with
      | true =>
        cases stepped
        refine ⟨durable_of_postShare rfl ?_ fun raises => absurd raises.1 (by decide), ?_⟩
        · intro posted status reply read _ _
          cases bodyRead.symm.trans read
          exact ⟨payload, Dict.get_set_self _ _ _, .inl rfl⟩
        · show Store.mk _ before.memory.secrets = Store.mk _ before.disk.secrets
          rw [synced]
      | false => exact (harmless ⟨rfl, ⟨payload, checked⟩, absent⟩).elim

theorem durable_storeSecretMetadata {before after : Server} {name : String} {commonName : Option String}
    {body : Except Failure Json} {now : String} {saved : Bool} {answer : Except Failure Answer}
    (synced : before.memory = before.disk)
    (stepped : storeSecretMetadata lower intOf before name commonName body now saved = (answer, after))
    (harmless : SaveRaises lower intOf before (.postSecret name commonName body now saved) →
      Rewrites lower intOf before (.postSecret name commonName body now saved)) :
    Durable lower intOf ⟨before, .postSecret name commonName body now saved, some answer, after⟩ ∧
      after.memory = after.disk := by
  cases checked : checkMetadata lower intOf before commonName body now with
  | error failure =>
    rw [storeSecretMetadata_unchecked saved checked] at stepped
    cases stepped
    refine ⟨durable_of_postSecret rfl ?_ fun _ => rfl, synced⟩
    intro _ answered
    cases answered
  | ok record =>
    rw [storeSecretMetadata_checked saved checked] at stepped
    cases saved with
    | true =>
      cases stepped
      refine ⟨durable_of_postSecret rfl ?_ fun raises => absurd raises.1 (by decide), ?_⟩
      · intro _ answered
        cases answered
        exact Dict.get_set_self _ _ _
      · show Store.mk before.memory.shares _ = Store.mk before.disk.shares _
        rw [synced]
    | false =>
      cases stepped
      -- the record that could not be written was already there
      have present : Dict.get before.memory.secrets name = some record :=
        harmless ⟨rfl, record, checked⟩ record checked
      have unchanged := Dict.set_eq_self before.memory.secrets name record present
      refine ⟨durable_of_postSecret rfl ?_ fun _ => ?_, ?_⟩
      · intro _ answered
        cases answered
      · show Store.mk before.memory.shares (Dict.set before.memory.secrets name record) = before.memory
        rw [unchanged]
      · show Store.mk before.memory.shares (Dict.set before.memory.secrets name record) = before.disk
        rw [unchanged]
        exact synced

/-- From memory and disk that agree, a step in which no save raises, or only one that
rewrites what is there, is durable and leaves them in agreement. -/
theorem durable_step {before after : Server} {input : Request} {output : Option (Except Failure Answer)}
    (synced : before.memory = before.disk) (stepped : handle lower intOf before input = (output, after))
    (harmless : SaveRaises lower intOf before input → Rewrites lower intOf before input) :
    Durable lower intOf ⟨before, input, output, after⟩ ∧ after.memory = after.disk := by
  cases input with
  | postShare shareUuid commonName body saved =>
    simp only [handle, Prod.mk.injEq] at stepped
    obtain ⟨rfl, rfl⟩ := stepped
    exact durable_storeShare synced rfl harmless
  | postSecret name commonName body now saved =>
    simp only [handle, Prod.mk.injEq] at stepped
    obtain ⟨rfl, rfl⟩ := stepped
    exact durable_storeSecretMetadata synced rfl harmless
  | getShare shareUuid commonName =>
    cases stepped
    exact ⟨durable_of_neither nofun nofun, synced⟩
  | getSecret name commonName =>
    cases stepped
    exact ⟨durable_of_neither nofun nofun, synced⟩
  | restart =>
    cases stepped
    exact ⟨durable_of_neither nofun nofun, rfl⟩

/-- A save that raises and yet leaves memory as it was rewrote what was there. -/
theorem rewrites_of_failed {before after : Server} {input : Request}
    {output : Option (Except Failure Answer)} (stepped : handle lower intOf before input = (output, after))
    (raises : SaveRaises lower intOf before input) (unchanged : after.memory = before.memory) :
    Rewrites lower intOf before input := by
  cases input with
  | postShare shareUuid commonName body saved =>
    obtain ⟨rfl, ⟨payload, checked⟩, absent⟩ := raises
    simp only [handle, Prod.mk.injEq] at stepped
    rcases storeShare_checked false checked with ⟨existing, found, _⟩ | ⟨_, outcome⟩
    · rw [absent] at found
      cases found
    · rw [outcome] at stepped
      rw [← stepped.2] at unchanged
      have same : Dict.set before.memory.shares shareUuid payload = before.memory.shares :=
        congrArg Store.shares unchanged
      rw [(Dict.set_eq_self_iff _ _ _).mp same] at absent
      cases absent
  | postSecret name commonName body now saved =>
    obtain ⟨rfl, record, checked⟩ := raises
    simp only [handle, Prod.mk.injEq] at stepped
    rw [storeSecretMetadata_checked false checked] at stepped
    rw [← stepped.2] at unchanged
    have same : Dict.set before.memory.secrets name record = before.memory.secrets :=
      congrArg Store.secrets unchanged
    intro other otherChecked
    obtain rfl : record = other := Except.ok.inj (checked.symm.trans otherChecked)
    exact (Dict.set_eq_self_iff _ _ _).mp same
  | getShare shareUuid commonName => exact raises.elim
  | getSecret name commonName => exact raises.elim
  | restart => exact raises.elim

end Routes

/-! ## Runs -/

/-- Over a whole run from a freshly booted server: every acknowledgement is durable, no
failed write changes a map, and memory and disk agree throughout, if and only if every save
that raises was to write what memory already held. -/
theorem durable_iff (lower : String → String) (intOf : String → Option Int) (server : Server)
    (booted : server.memory = server.disk) (requests : List Request) :
    (∀ step ∈ transitions (handle lower intOf) server requests,
      Durable lower intOf step ∧ step.after.memory = step.after.disk) ↔
    ∀ step ∈ transitions (handle lower intOf) server requests,
      SaveRaises lower intOf step.before step.input → Rewrites lower intOf step.before step.input := by
  constructor
  · intro durable step member raises
    exact rewrites_of_failed (step_of_mem_transitions member) raises ((durable step member).1.failed raises)
  · intro harmless
    have synced := @invariant_of_steps _ _ _ (handle lower intOf) (fun server => server.memory = server.disk)
      _ _ _ (fun step harmless before stepped => (durable_step before stepped harmless).2) booted harmless
    intro step member
    exact durable_step (synced.1 step member).1 (step_of_mem_transitions member) (harmless step member)

def sampleServer : Server where
  hosts := .dict []
  memory := ⟨[], []⟩
  disk := ⟨[], []⟩

def samplePayload : Json :=
  .dict [("keys", .list [.list [.int 1, .int 5]]), ("creation_date", .str "2026-01-01T00:00:00+00:00"),
    ("owner", .str "host1"), ("name", .str "wifi"), ("uuid", .str "u1"), ("treshold", .int 2),
    ("shares", .int 3), ("secret_hash", .null)]

def samplePost (saved : Bool) : Request := .postShare "u1" (some "host1.example.org") (.ok samplePayload) saved

/-- A share whose save raised, posted again: the retry is acknowledged from memory, and the
share is not on disk. -/
theorem lost_acknowledgement :
    (transitions (handle id fun _ => none) sampleServer [samplePost false, samplePost true]).map (·.output) =
      [some (.error (.raised .osError)),
        some (.ok (200, .dict [("status", .str "already-stored")]))] ∧
    Dict.get (run (handle id fun _ => none) sampleServer [samplePost false, samplePost true]).disk.shares "u1" =
      none ∧
    (Dict.get (run (handle id fun _ => none) sampleServer [samplePost false]).memory.shares "u1").isSome ∧
    SaveRaises id (fun _ => none) sampleServer (samplePost false) := by
  have checked : checkShare id "u1" (some "host1.example.org") (.ok samplePayload) = .ok samplePayload := rfl
  exact ⟨rfl, rfl, rfl, rfl, ⟨samplePayload, checked⟩, rfl⟩

/-- The same share stored, posted again, read and there after a restart. -/
theorem durable_iff_stored :
    (transitions (handle id fun _ => none) sampleServer
        [samplePost true, samplePost true, .getShare "u1" (some "host1"), .restart]).map (·.output) =
      [some (.ok (201, .dict [("status", .str "stored")])), some (.ok (200, .dict [("status", .str "already-stored")])),
        some (.ok (200, samplePayload)), none] ∧
    ∀ step ∈ transitions (handle id fun _ => none) sampleServer
        [samplePost true, samplePost true, .getShare "u1" (some "host1"), .restart],
      Durable id (fun _ => none) step ∧ step.after.memory = step.after.disk := by
  refine ⟨rfl, (durable_iff id (fun _ => none) sampleServer rfl _).mpr ?_⟩
  intro step member raises
  have input := input_of_mem_transitions member
  simp only [samplePost, List.mem_cons, List.not_mem_nil, or_false] at input
  rcases input with same | same | same | same
  · rw [same] at raises
    cases raises.1
  · rw [same] at raises
    cases raises.1
  · rw [same] at raises
    exact raises.elim
  · rw [same] at raises
    exact raises.elim

end SecretWeb.Server
