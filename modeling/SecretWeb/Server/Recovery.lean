import SecretWeb.Server.RouteSpecs
import SecretWeb.Server.Boot
import SecretWeb.Storage.Authenticity
import SecretWeb.Storage.AtomicWrite

/-! # Killed servers

A server that may be killed between any two steps of a boot or of a request, and booted again
from the files it has left.  What a boot finds is what the server held when it last booted or
acknowledged a request, or that with the one request applied that the kill has cut off. -/

namespace SecretWeb.Server.Recovery

open SecretWeb.Data SecretWeb.Python SecretWeb.Python.JsonText SecretWeb.Storage SecretWeb.Machine

open SecretWeb.CryptoFile (Nonce)

/-! ## The two files -/

inductive StoreFile where
  | secrets
  | shares
deriving DecidableEq

namespace StoreFile

def path : StoreFile → String
  | .secrets => SECRETS_FILENAME
  | .shares => SHARES_FILENAME

def purpose : StoreFile → String
  | .secrets => SECRETS_FILE_PURPOSE
  | .shares => SHARES_FILE_PURPOSE

/-- `app.config["secrets"]` and `app.config["shares"]`. -/
def contents (store : Store) : StoreFile → Json
  | .secrets => .dict [("secrets", .dict store.secrets)]
  | .shares => .dict [("shares", .dict store.shares)]

def default : StoreFile → Json
  | .secrets => defaultSecretsData
  | .shares => defaultSharesData

/-- The map that the routes of a file look into. -/
def entries (document : Json) : StoreFile → Option (Dict Json)
  | .secrets => do (← document.asDict.bind (Dict.get · "secrets")).asDict
  | .shares => do (← document.asDict.bind (Dict.get · "shares")).asDict

theorem named (file : StoreFile) : ¬Temporary file.path := by
  cases file with
  | secrets => exact not_temporary (by decide)
  | shares => exact not_temporary (by decide)

theorem path_ne {file other : StoreFile} (different : other ≠ file) : other.path ≠ file.path := by
  cases file with
  | secrets =>
    cases other with
    | secrets => exact absurd rfl different
    | shares => decide
  | shares =>
    cases other with
    | secrets => decide
    | shares => exact absurd rfl different

end StoreFile

/-! ## Requests -/

/-- A request that stores something, with the body the framework has parsed. -/
inductive Post (floats : FloatText) where
  | share (shareUuid : String) (commonName : Option String) (body : Except Failure (Document floats))
  | secret (name : String) (commonName : Option String) (body : Except Failure (Document floats)) (now : String)

/-- What a route has come to when it answers or starts to write a file. -/
inductive Received where
  | answered (answer : Except Failure Answer)
  | saving (file : StoreFile) (memory : Store) (answer : Answer)

section Requests

variable (lower : String → String) (intOf : String → Option Int) (hosts : Json) {floats : FloatText}

/-- The request as the routes take it, its save succeeding. -/
def Post.request : Post floats → Request
  | .share shareUuid commonName body => .postShare shareUuid commonName (body.map Document.value) true
  | .secret name commonName body now => .postSecret name commonName (body.map Document.value) now true

/-- The route up to its save. -/
def receive (memory : Store) : Post floats → Received
  | .share shareUuid commonName body =>
    match checkShare lower shareUuid commonName (body.map Document.value) with
    | .error failure => .answered (.error failure)
    | .ok payload =>
      match Dict.get memory.shares shareUuid with
      | some existing =>
        if existing.equals payload then .answered (.ok (200, .dict [("status", .str "already-stored")]))
        else .answered (.error (.aborted 409 "a different share is already stored for this uuid"))
      | none =>
        .saving .shares { memory with shares := Dict.set memory.shares shareUuid payload }
          (201, .dict [("status", .str "stored")])
  | .secret name commonName body now =>
    match checkMetadata lower intOf ⟨hosts, memory, memory⟩ commonName (body.map Document.value) now with
    | .error failure => .answered (.error failure)
    | .ok record =>
      .saving .secrets { memory with secrets := Dict.set memory.secrets name record } (201, record)

/-- The request carried out on a map that cannot fail. -/
def applied (store : Store) (post : Post floats) : Store :=
  (handle lower intOf ⟨hosts, store, store⟩ post.request).2.disk

end Requests

/-! ## The process and its directory -/

inductive Process (floats : FloatText) where
  | down
  | failed
  | creatingSecrets (sharesNonce : Nonce) (bytes : Bytes) (writing : Writing)
  | creatingShares (secrets : Json) (bytes : Bytes) (writing : Writing)
  | running (memory : Store)
  | saving (memory : Store) (post : Post floats) (file : StoreFile) (answer : Answer) (bytes : Bytes)
      (writing : Writing)
  | answering (memory : Store) (post : Post floats) (answer : Except Failure Answer)

/-- The process is not there, or has not got to its requests yet. -/
def Process.starting {floats : FloatText} : Process floats → Bool
  | .down => true
  | .creatingSecrets .. => true
  | .creatingShares .. => true
  | _ => false

/-- What a server that waits for requests holds. -/
def Process.memory {floats : FloatText} : Process floats → Option Store
  | .running memory => some memory
  | _ => none

structure Host (floats : FloatText) where
  directory : Directory
  process : Process floats

inductive Event (floats : FloatText) where
  | start (secretsNonce sharesNonce : Nonce)
  | work (step : WriteStep)
  | post (post : Post floats) (nonce : Nonce)
  | answer
  | kill
  | elsewhere (name : String) (bytes : Bytes)

/-- What comes after a write, once it is done. -/
def after {α : Type} (done : α) (going : Writing → α) : Writing → α
  | .replaced => done
  | writing => going writing

section Steps

variable (cipher : Cipher) (floats : FloatText) (key1 : String)

/-- A server that has all its documents; without the maps in them it is of no use. -/
def booted (secrets shares : Json) : Process floats :=
  match StoreFile.secrets.entries secrets, StoreFile.shares.entries shares with
  | some secrets, some shares => .running ⟨shares, secrets⟩
  | _, _ => .failed

/-- `ensure_shares_file`, up to where it would write. -/
def ensureShares (directory : Directory) (secrets : Json) (nonce : Nonce) : Process floats :=
  if (Dict.get directory SHARES_FILENAME).isSome then
    match load cipher floats directory SHARES_FILENAME key1 SHARES_FILE_PURPOSE with
    | .error _ => .failed
    | .ok shares => booted floats secrets shares
  else .creatingShares secrets (blob cipher floats key1 SHARES_FILE_PURPOSE nonce defaultSharesData) .starting

/-- `ensure_secrets_file`, up to where it would write, and what follows if it does not. -/
def ensureSecrets (directory : Directory) (secretsNonce sharesNonce : Nonce) : Process floats :=
  if (Dict.get directory SECRETS_FILENAME).isSome then
    match load cipher floats directory SECRETS_FILENAME key1 SECRETS_FILE_PURPOSE with
    | .error _ => .failed
    | .ok secrets => ensureShares cipher floats key1 directory secrets sharesNonce
  else
    .creatingSecrets sharesNonce (blob cipher floats key1 SECRETS_FILE_PURPOSE secretsNonce defaultSecretsData)
      .starting

variable {floats} (lower : String → String) (intOf : String → Option Int) (hosts : Json)

/-- One step; one that is not due changes nothing.  A boot begins with the stages of the two
files, and the other files of the directory may change at any time.  A save may be cut off, but
it does not raise. -/
def step (host : Host floats) : Event floats → Option (Except Failure Answer) × Host floats
  | .start secretsNonce sharesNonce =>
    match host.process with
    | .down => (none, { host with process := ensureSecrets cipher floats key1 host.directory secretsNonce sharesNonce })
    | _ => (none, host)
  | .work writeStep =>
    match host.process with
    | .creatingSecrets sharesNonce bytes writing =>
      let (next, directory) := writing.step SECRETS_FILENAME bytes host.directory writeStep
      (none, ⟨directory, after (ensureShares cipher floats key1 directory defaultSecretsData sharesNonce)
        (.creatingSecrets sharesNonce bytes) next⟩)
    | .creatingShares secrets bytes writing =>
      let (next, directory) := writing.step SHARES_FILENAME bytes host.directory writeStep
      (none, ⟨directory, after (booted floats secrets defaultSharesData) (.creatingShares secrets bytes) next⟩)
    | .saving memory post file answer bytes writing =>
      let (next, directory) := writing.step file.path bytes host.directory writeStep
      (none, ⟨directory, after (.answering memory post (.ok answer)) (.saving memory post file answer bytes) next⟩)
    | _ => (none, host)
  | .post post nonce =>
    match host.process with
    | .running memory =>
      match receive lower intOf hosts memory post with
      | .answered answer => (none, { host with process := .answering memory post answer })
      | .saving file memory answer =>
        let bytes := blob cipher floats key1 file.purpose nonce (file.contents memory)
        (none, { host with process := .saving memory post file answer bytes .starting })
    | _ => (none, host)
  | .answer =>
    match host.process with
    | .answering memory _ answer => (some answer, { host with process := .running memory })
    | _ => (none, host)
  | .kill => (none, { host with process := .down })
  | .elsewhere name bytes =>
    if name = SECRETS_FILENAME ∨ name = SHARES_FILENAME ∨ name.toList.head? = some '.' then (none, host)
    else (none, { host with directory := Dict.set host.directory name bytes })

/-! ## What a boot should find -/

abbrev Step (floats : FloatText) := Transition (Host floats) (Event floats) (Option (Except Failure Answer))

/-- The store that a boot has come up with in this step. -/
def bootedWith (transition : Step floats) : Option Store :=
  if transition.before.process.starting then transition.after.process.memory else none

/-- The request that is answered with success in this step. -/
def acknowledgedPost (transition : Step floats) : Option (Post floats) :=
  match transition.before.process, transition.output with
  | .answering _ post _, some (.ok _) => some post
  | _, _ => none

/-- The request that is cut off in this step. -/
def cutOff (transition : Step floats) : Option (Post floats) :=
  match transition.input, transition.before.process with
  | .kill, .saving _ post _ _ _ _ => some post
  | .kill, .answering _ post _ => some post
  | _, _ => none

/-- The store after the last request that was answered with success or the last boot. -/
def settled (store : Store) (history : List (Step floats)) : Store :=
  history.foldl (fun store transition =>
    match bootedWith transition with
    | some memory => memory
    | none =>
      match acknowledgedPost transition with
      | some post => applied lower intOf hosts store post
      | none => store) store

/-- The store after the last request that was answered with success, whatever has been booted
with since. -/
def acknowledged (store : Store) (history : List (Step floats)) : Store :=
  history.foldl (fun store transition =>
    match acknowledgedPost transition with
    | some post => applied lower intOf hosts store post
    | none => store) store

/-- The request in flight at a kill since the last boot. -/
def inFlight (history : List (Step floats)) : Option (Post floats) :=
  history.foldl (fun flight transition =>
    match bootedWith transition with
    | some _ => none
    | none => (cutOff transition).or flight) none

/-! ## What is on disk -/

/-- The directory has the store: a file that is not there stands for the default. -/
structure Held (floats : FloatText) (directory : Directory) (store : Store) : Prop where
  writable : ∀ file : StoreFile, Writable floats (file.contents store)
  onDisk : ∀ file : StoreFile, (Dict.get directory file.path = none ∧ file.contents store = file.default) ∨
    ∃ nonce, Dict.get directory file.path = some (blob cipher floats key1 file.purpose nonce (file.contents store))

/-- A write on its way, of the file of the store. -/
structure Pending (floats : FloatText) (directory : Directory) (file : StoreFile) (store : Store) (bytes : Bytes)
    (writing : Writing) : Prop where
  sealed : ∃ nonce, bytes = blob cipher floats key1 file.purpose nonce (file.contents store)
  holds : writing.Holds bytes directory
  going : writing ≠ .replaced

variable {cipher key1 lower intOf hosts}

theorem after_of_ne {α : Type} {done : α} {going : Writing → α} {writing : Writing} (ongoing : writing ≠ .replaced) :
    after done going writing = going writing := by
  cases writing with
  | replaced => exact absurd rfl ongoing
  | _ => rfl

/-- One step of a write takes the directory from the one store to the other, or leaves it. -/
theorem Held.work {directory : Directory} {store next : Store} {file : StoreFile} {bytes : Bytes} {writing : Writing}
    (held : Held cipher key1 floats directory store)
    (pending : Pending cipher key1 floats directory file next bytes writing)
    (writable : ∀ file : StoreFile, Writable floats (file.contents next))
    (others : ∀ other, other ≠ file → other.contents next = other.contents store) (writeStep : WriteStep) :
    ((writing.step file.path bytes directory writeStep).1 = .replaced ∧
      Held cipher key1 floats (writing.step file.path bytes directory writeStep).2 next) ∨
    ((writing.step file.path bytes directory writeStep).1 ≠ .replaced ∧
      Held cipher key1 floats (writing.step file.path bytes directory writeStep).2 store ∧
      Pending cipher key1 floats (writing.step file.path bytes directory writeStep).2 file next bytes
        (writing.step file.path bytes directory writeStep).1) := by
  have stepped := Writing.step_stepped file.named pending.holds pending.going writeStep
  have kept : ∀ other : StoreFile, other ≠ file →
      Dict.get (writing.step file.path bytes directory writeStep).2 other.path = Dict.get directory other.path :=
    fun other different => stepped.others _ other.named (StoreFile.path_ne different)
  cases stepped.path with
  | inl finished =>
    refine .inl ⟨finished.1, writable, fun other => ?_⟩
    by_cases same : other = file
    · subst same
      obtain ⟨nonce, rfl⟩ := pending.sealed
      exact .inr ⟨nonce, finished.2⟩
    · rw [kept other same, others other same]
      exact held.onDisk other
  | inr ongoing =>
    refine .inr ⟨ongoing.1, ⟨held.writable, fun other => ?_⟩, pending.sealed, stepped.holds, ongoing.1⟩
    by_cases same : other = file
    · subst same
      rw [ongoing.2]
      exact held.onDisk other
    · rw [kept other same]
      exact held.onDisk other

/-! ## Boots -/

theorem Held.load_eq {directory : Directory} {store : Store} (held : Held cipher key1 floats directory store)
    (file : StoreFile)
    (present : (Dict.get directory file.path).isSome = true) :
    load cipher floats directory file.path key1 file.purpose = .ok (file.contents store) := by
  cases held.onDisk file with
  | inl absent =>
    rw [absent.1] at present
    cases present
  | inr there =>
    obtain ⟨nonce, found⟩ := there
    rw [load, found]
    exact opened_blob key1 file.purpose nonce (held.writable file)

theorem Held.default_of_absent {directory : Directory} {store : Store}
    (held : Held cipher key1 floats directory store) (file : StoreFile)
    (absent : ¬(Dict.get directory file.path).isSome = true) : file.contents store = file.default := by
  cases held.onDisk file with
  | inl there => exact there.2
  | inr there =>
    obtain ⟨nonce, found⟩ := there
    rw [found] at absent
    exact absurd rfl absent

variable (cipher key1) in
/-- A boot that has found the store so far. -/
def Booting (directory : Directory) (store : Store) : Process floats → Prop
  | .running memory => memory = store
  | .creatingSecrets _ bytes writing =>
    StoreFile.secrets.contents store = StoreFile.secrets.default ∧
      Pending cipher key1 floats directory .secrets store bytes writing
  | .creatingShares secrets bytes writing =>
    secrets = StoreFile.secrets.contents store ∧ StoreFile.shares.contents store = StoreFile.shares.default ∧
      Pending cipher key1 floats directory .shares store bytes writing
  | _ => False

theorem booted_contents (store : Store) :
    booted floats (StoreFile.secrets.contents store) (StoreFile.shares.contents store) = .running store := rfl

theorem ensureShares_booting {directory : Directory} {store : Store}
    (held : Held cipher key1 floats directory store) (nonce : Nonce) :
    Booting cipher key1 directory store
      (ensureShares cipher floats key1 directory (StoreFile.secrets.contents store) nonce) := by
  rw [ensureShares]
  by_cases present : (Dict.get directory SHARES_FILENAME).isSome = true
  · rw [if_pos present]
    have loaded : load cipher floats directory SHARES_FILENAME key1 SHARES_FILE_PURPOSE =
        .ok (StoreFile.shares.contents store) := held.load_eq .shares present
    rw [loaded]
    exact rfl
  · rw [if_neg present]
    have default := held.default_of_absent .shares present
    exact ⟨rfl, default, ⟨nonce, by rw [default]; rfl⟩, trivial, by simp⟩

theorem ensureSecrets_booting {directory : Directory} {store : Store}
    (held : Held cipher key1 floats directory store) (secretsNonce sharesNonce : Nonce) :
    Booting cipher key1 directory store (ensureSecrets cipher floats key1 directory secretsNonce sharesNonce) := by
  rw [ensureSecrets]
  by_cases present : (Dict.get directory SECRETS_FILENAME).isSome = true
  · rw [if_pos present]
    have loaded : load cipher floats directory SECRETS_FILENAME key1 SECRETS_FILE_PURPOSE =
        .ok (StoreFile.secrets.contents store) := held.load_eq .secrets present
    rw [loaded]
    exact ensureShares_booting held sharesNonce
  · rw [if_neg present]
    have default := held.default_of_absent .secrets present
    exact ⟨default, ⟨secretsNonce, by rw [default]; rfl⟩, trivial, by simp⟩

/-! ## Requests -/

theorem applied_of_answered {memory : Store} {post : Post floats} {answer : Except Failure Answer}
    (received : receive lower intOf hosts memory post = .answered answer) :
    applied lower intOf hosts memory post = memory := by
  cases post with
  | share shareUuid commonName body =>
    rw [receive] at received
    show (storeShare lower ⟨hosts, memory, memory⟩ shareUuid commonName (body.map Document.value) true).2.disk = memory
    rw [storeShare]
    cases checked : checkShare lower shareUuid commonName (body.map Document.value) with
    | error failure => rfl
    | ok payload =>
      rw [checked] at received
      dsimp only at received ⊢
      -- a uuid that is taken writes nothing
      cases found : Dict.get memory.shares shareUuid with
      | some existing =>
        dsimp only
        split
        · rfl
        · rfl
      | none =>
        rw [found] at received
        cases received
  | secret name commonName body now =>
    rw [receive] at received
    show (storeSecretMetadata lower intOf ⟨hosts, memory, memory⟩ name commonName (body.map Document.value) now
      true).2.disk = memory
    cases checked : checkMetadata lower intOf ⟨hosts, memory, memory⟩ commonName (body.map Document.value) now with
    | error failure => rw [storeSecretMetadata_unchecked true checked]
    | ok record =>
      rw [checked] at received
      cases received

/-- A request that writes changes the one map as on the route, and the document stays one. -/
theorem receive_saving {memory next : Store} {post : Post floats} {file : StoreFile} {answer : Answer}
    (received : receive lower intOf hosts memory post = .saving file next answer)
    (writable : ∀ file : StoreFile, Writable floats (file.contents memory)) :
    next = applied lower intOf hosts memory post ∧ (∀ file : StoreFile, Writable floats (file.contents next)) ∧
      ∀ other, other ≠ file → other.contents next = other.contents memory := by
  cases post with
  | share shareUuid commonName body =>
    rw [receive] at received
    cases checked : checkShare lower shareUuid commonName (body.map Document.value) with
    | error failure =>
      rw [checked] at received
      cases received
    | ok payload =>
      rw [checked] at received
      dsimp only at received
      have stored := @storeShare_checked lower ⟨hosts, memory, memory⟩ _ _ _ _ true checked
      cases found : Dict.get memory.shares shareUuid with
      | some existing =>
        rw [found] at received
        dsimp only at received
        split at received
        · cases received
        · cases received
      | none =>
        rw [found] at received
        cases received
        cases stored with
        | inl present =>
          obtain ⟨existing, present, _⟩ := present
          cases found.symm.trans present
        | inr fresh =>
          refine ⟨?_, ?_, ?_⟩
          · show _ = (storeShare lower ⟨hosts, memory, memory⟩ shareUuid commonName (body.map Document.value)
              true).2.disk
            rw [fresh.2]
            rfl
          · -- the share that is written is the body
            have payloadWritable : Writable floats payload := by
              have bodyRead := (checkShare_eq_ok checked).1
              cases body with
              | error failure => cases bodyRead
              | ok document =>
                cases bodyRead
                exact document.writable
            intro file
            cases file with
            | secrets => exact writable .secrets
            | shares =>
              have before := (writable .shares).2.1
              exact ⟨by simp, ⟨(Dict.keys_set _ _ _ before.1).1, before.2.set payloadWritable⟩, trivial⟩
          · intro other different
            cases other with
            | secrets => rfl
            | shares => exact absurd rfl different
  | secret name commonName body now =>
    rw [receive] at received
    cases checked : checkMetadata lower intOf ⟨hosts, memory, memory⟩ commonName (body.map Document.value) now with
    | error failure =>
      rw [checked] at received
      cases received
    | ok record =>
      rw [checked] at received
      cases received
      refine ⟨?_, ?_, ?_⟩
      · show _ = (storeSecretMetadata lower intOf ⟨hosts, memory, memory⟩ name commonName (body.map Document.value) now
          true).2.disk
        rw [storeSecretMetadata_checked true checked]
        rfl
      · have recordWritable : Writable floats record := by
          obtain ⟨payload, uuid, treshold, sharesSaved, bodyRead, uuidRead, rfl⟩ := checkMetadata_eq_ok checked
          cases body with
          | error failure => cases bodyRead
          | ok document =>
            cases bodyRead
            exact ⟨by simp, writable_getItem document.writable uuidRead, trivial, trivial, trivial, trivial⟩
        intro file
        cases file with
        | secrets =>
          have before := (writable .secrets).2.1
          exact ⟨by simp, ⟨(Dict.keys_set _ _ _ before.1).1, before.2.set recordWritable⟩, trivial⟩
        | shares => exact writable .shares
      · intro other different
        cases other with
        | secrets => exact absurd rfl different
        | shares => rfl

/-! ## The invariant -/

section Invariant

variable (cipher key1 lower intOf hosts)

/-- What a boot may find: the store, or the store with the request in flight carried out. -/
def Candidate (store : Store) (flight : Option (Post floats)) (candidate : Store) : Prop :=
  candidate = store ∨ ∃ post, flight = some post ∧ candidate = applied lower intOf hosts store post

def Sound (store : Store) (flight : Option (Post floats)) (host : Host floats) : Prop :=
  match host.process with
  | .down =>
    ∃ candidate, Candidate lower intOf hosts store flight candidate ∧
      Held cipher key1 floats host.directory candidate
  -- no boot fails
  | .failed => False
  | .running memory => memory = store ∧ Held cipher key1 floats host.directory store
  | .saving memory post file _ bytes writing =>
    memory = applied lower intOf hosts store post ∧ Held cipher key1 floats host.directory store ∧
      (∀ file : StoreFile, Writable floats (file.contents memory)) ∧
      (∀ other, other ≠ file → other.contents memory = other.contents store) ∧
      Pending cipher key1 floats host.directory file memory bytes writing
  | .answering memory post answer =>
    memory = applied lower intOf hosts store post ∧ Held cipher key1 floats host.directory memory ∧
      ∀ failure, answer = .error failure → memory = store
  | process =>
    ∃ candidate, Candidate lower intOf hosts store flight candidate ∧
      Held cipher key1 floats host.directory candidate ∧
      Booting cipher key1 host.directory candidate process

end Invariant

section History

variable {store : Store} {history : List (Step floats)} {transition : Step floats}

theorem settled_append : settled lower intOf hosts store (history ++ [transition]) =
    match bootedWith transition with
    | some memory => memory
    | none =>
      match acknowledgedPost transition with
      | some post => applied lower intOf hosts (settled lower intOf hosts store history) post
      | none => settled lower intOf hosts store history := by
  rw [settled, List.foldl_append]
  rfl

theorem inFlight_append : inFlight (history ++ [transition]) =
    match bootedWith transition with
    | some _ => none
    | none => (cutOff transition).or (inFlight history) := by
  rw [inFlight, List.foldl_append]
  rfl

end History

section Preservation

variable {store : Store} {history : List (Step floats)} {transition : Step floats}

/-- What holds after a step, and of the store it has booted with. -/
def Kept (cipher : Cipher) (key1 : String) (lower : String → String) (intOf : String → Option Int) (hosts : Json)
    (store : Store) (history : List (Step floats)) (transition : Step floats) : Prop :=
  Sound cipher key1 lower intOf hosts (settled lower intOf hosts store (history ++ [transition]))
      (inFlight (history ++ [transition])) transition.after ∧
    ∀ memory, bootedWith transition = some memory →
      Candidate lower intOf hosts (settled lower intOf hosts store history) (inFlight history) memory

/-- Steps that boot nothing, answer nothing and cut nothing off. -/
theorem kept_of_quiet (booted : bootedWith transition = none) (acknowledged : acknowledgedPost transition = none)
    (cut : cutOff transition = none)
    (sound : Sound cipher key1 lower intOf hosts (settled lower intOf hosts store history) (inFlight history)
      transition.after) : Kept cipher key1 lower intOf hosts store history transition := by
  refine ⟨?_, fun memory with_ => ?_⟩
  · rw [settled_append, inFlight_append, booted, acknowledged, cut]
    exact sound
  · rw [booted] at with_
    cases with_

theorem quiet_of_starting (starting : transition.before.process.starting = true) :
    acknowledgedPost transition = none ∧ cutOff transition = none := by
  obtain ⟨⟨directory, process⟩, input, output, next⟩ := transition
  cases process with
  | down => exact ⟨rfl, by cases input <;> rfl⟩
  | creatingSecrets sharesNonce bytes writing => exact ⟨rfl, by cases input <;> rfl⟩
  | creatingShares secrets bytes writing => exact ⟨rfl, by cases input <;> rfl⟩
  | _ => cases starting

/-- A boot that has found a candidate. -/
theorem kept_of_booting {candidate : Store} (starting : transition.before.process.starting = true)
    (possible : Candidate lower intOf hosts (settled lower intOf hosts store history) (inFlight history) candidate)
    (held : Held cipher key1 floats transition.after.directory candidate)
    (found : Booting cipher key1 transition.after.directory candidate transition.after.process) :
    Kept cipher key1 lower intOf hosts store history transition := by
  obtain ⟨acknowledged, cut⟩ := quiet_of_starting starting
  have with_ : bootedWith transition = transition.after.process.memory := by rw [bootedWith, if_pos starting]
  obtain ⟨before, input, output, directory, process⟩ := transition
  cases process with
  | running memory =>
    obtain rfl : memory = candidate := found
    refine ⟨?_, fun other same => ?_⟩
    · rw [settled_append, inFlight_append, with_]
      exact ⟨rfl, held⟩
    · rw [with_] at same
      cases same
      exact possible
  | creatingSecrets sharesNonce bytes writing =>
    exact kept_of_quiet with_ acknowledged cut ⟨candidate, possible, held, found⟩
  | creatingShares secrets bytes writing =>
    exact kept_of_quiet with_ acknowledged cut ⟨candidate, possible, held, found⟩
  | _ => exact found.elim

/-- Steps that change nothing. -/
theorem kept_of_same {host : Host floats} {input : Event floats} {output : Option (Except Failure Answer)}
    (silent : output = none) (alive : input ≠ .kill)
    (sound : Sound cipher key1 lower intOf hosts (settled lower intOf hosts store history) (inFlight history) host) :
    Kept cipher key1 lower intOf hosts store history ⟨host, input, output, host⟩ := by
  subst silent
  obtain ⟨directory, process⟩ := host
  have cut : cutOff (⟨⟨directory, process⟩, input, none, ⟨directory, process⟩⟩ : Step floats) = none := by
    cases input with
    | kill => exact absurd rfl alive
    | _ => rfl
  cases process with
  | _ => exact kept_of_quiet rfl rfl cut sound

variable {host : Host floats}

theorem kept_kill (sound : Sound cipher key1 lower intOf hosts (settled lower intOf hosts store history)
    (inFlight history) host) :
    Kept cipher key1 lower intOf hosts store history ⟨host, .kill, none, { host with process := .down }⟩ := by
  obtain ⟨directory, process⟩ := host
  cases process with
  | down => exact kept_of_quiet rfl rfl rfl sound
  | failed => exact sound.elim
  | creatingSecrets sharesNonce bytes writing =>
    obtain ⟨candidate, possible, held, _⟩ := sound
    exact kept_of_quiet rfl rfl rfl ⟨candidate, possible, held⟩
  | creatingShares secrets bytes writing =>
    obtain ⟨candidate, possible, held, _⟩ := sound
    exact kept_of_quiet rfl rfl rfl ⟨candidate, possible, held⟩
  | running memory => exact kept_of_quiet rfl rfl rfl ⟨_, .inl rfl, sound.2⟩
  | saving memory post file answer bytes writing =>
    refine ⟨?_, fun memory with_ => by cases with_⟩
    rw [settled_append, inFlight_append]
    exact ⟨_, .inl rfl, sound.2.1⟩
  | answering memory post answer =>
    refine ⟨?_, fun memory with_ => by cases with_⟩
    rw [settled_append, inFlight_append]
    exact ⟨memory, .inr ⟨post, rfl, sound.1⟩, sound.2.1⟩

theorem kept_answer (sound : Sound cipher key1 lower intOf hosts (settled lower intOf hosts store history)
    (inFlight history) host) :
    Kept cipher key1 lower intOf hosts store history
      ⟨host, .answer, (step cipher key1 lower intOf hosts host .answer).1,
        (step cipher key1 lower intOf hosts host .answer).2⟩ := by
  obtain ⟨directory, process⟩ := host
  cases process with
  | answering memory post answer =>
    obtain ⟨carriedOut, held, refused⟩ := sound
    cases answer with
    | ok answer =>
      refine ⟨?_, fun memory with_ => by cases with_⟩
      rw [settled_append]
      exact ⟨carriedOut, carriedOut ▸ held⟩
    | error failure =>
      obtain rfl := refused failure rfl
      exact kept_of_quiet rfl rfl rfl ⟨rfl, held⟩
  | _ => exact kept_of_same rfl (by simp) sound

theorem kept_start (sound : Sound cipher key1 lower intOf hosts (settled lower intOf hosts store history)
    (inFlight history) host) (secretsNonce sharesNonce : Nonce) :
    Kept cipher key1 lower intOf hosts store history
      ⟨host, .start secretsNonce sharesNonce,
        (step cipher key1 lower intOf hosts host (.start secretsNonce sharesNonce)).1,
        (step cipher key1 lower intOf hosts host (.start secretsNonce sharesNonce)).2⟩ := by
  obtain ⟨directory, process⟩ := host
  cases process with
  | down =>
    obtain ⟨candidate, possible, held⟩ := sound
    exact kept_of_booting rfl possible held (ensureSecrets_booting held secretsNonce sharesNonce)
  | _ => exact kept_of_same rfl (by simp) sound

theorem kept_post (sound : Sound cipher key1 lower intOf hosts (settled lower intOf hosts store history)
    (inFlight history) host) (post : Post floats) (nonce : Nonce) :
    Kept cipher key1 lower intOf hosts store history
      ⟨host, .post post nonce, (step cipher key1 lower intOf hosts host (.post post nonce)).1,
        (step cipher key1 lower intOf hosts host (.post post nonce)).2⟩ := by
  obtain ⟨directory, process⟩ := host
  cases process with
  | running memory =>
    obtain ⟨same, held⟩ := sound
    cases received : receive lower intOf hosts memory post with
    | answered answer =>
      have stepped : step cipher key1 lower intOf hosts ⟨directory, .running memory⟩ (.post post nonce) =
          (none, ⟨directory, .answering memory post answer⟩) := by
        dsimp only [step]
        rw [received]
      have unchanged := applied_of_answered received
      rw [same] at unchanged
      rw [stepped]
      exact kept_of_quiet rfl rfl rfl ⟨same.trans unchanged.symm, same ▸ held, fun _ _ => same⟩
    | saving file next answer =>
      have stepped : step cipher key1 lower intOf hosts ⟨directory, .running memory⟩ (.post post nonce) =
          (none, ⟨directory, .saving next post file answer
            (blob cipher floats key1 file.purpose nonce (file.contents next)) .starting⟩) := by
        dsimp only [step]
        rw [received]
      obtain ⟨carriedOut, writable, others⟩ := receive_saving received (same ▸ held.writable)
      rw [stepped]
      exact kept_of_quiet rfl rfl rfl
        ⟨same ▸ carriedOut, held, writable, same ▸ others, ⟨nonce, rfl⟩, trivial, by simp⟩
  | _ => exact kept_of_same rfl (by simp) sound

/-- A step of a write: the file is replaced and the process goes on, or the write does. -/
theorem kept_writing (file : StoreFile) (done : Directory → Process floats) {directory : Directory}
    {process : Process floats} {current next : Store} {bytes : Bytes} {writing : Writing}
    {going : Writing → Process floats} {writeStep : WriteStep}
    (stepped : step cipher key1 lower intOf hosts ⟨directory, process⟩ (.work writeStep) =
      (none, ⟨(writing.step file.path bytes directory writeStep).2,
        after (done (writing.step file.path bytes directory writeStep).2) going
          (writing.step file.path bytes directory writeStep).1⟩))
    (held : Held cipher key1 floats directory current)
    (pending : Pending cipher key1 floats directory file next bytes writing)
    (writable : ∀ file : StoreFile, Writable floats (file.contents next))
    (others : ∀ other, other ≠ file → other.contents next = other.contents current)
    (finished : ∀ moved, Held cipher key1 floats moved next → Kept cipher key1 lower intOf hosts store history
      ⟨⟨directory, process⟩, .work writeStep, none, ⟨moved, done moved⟩⟩)
    (ongoing : ∀ moved writing, Held cipher key1 floats moved current →
      Pending cipher key1 floats moved file next bytes writing → Kept cipher key1 lower intOf hosts store history
        ⟨⟨directory, process⟩, .work writeStep, none, ⟨moved, going writing⟩⟩) :
    Kept cipher key1 lower intOf hosts store history
      ⟨⟨directory, process⟩, .work writeStep,
        (step cipher key1 lower intOf hosts ⟨directory, process⟩ (.work writeStep)).1,
        (step cipher key1 lower intOf hosts ⟨directory, process⟩ (.work writeStep)).2⟩ := by
  rw [stepped]
  cases held.work pending writable others writeStep with
  | inl replaced =>
    obtain ⟨isReplaced, heldAfter⟩ := replaced
    rw [isReplaced]
    exact finished _ heldAfter
  | inr going =>
    obtain ⟨isGoing, heldAfter, pendingAfter⟩ := going
    rw [after_of_ne isGoing]
    exact ongoing _ _ heldAfter pendingAfter

theorem kept_work (sound : Sound cipher key1 lower intOf hosts (settled lower intOf hosts store history)
    (inFlight history) host) (writeStep : WriteStep) :
    Kept cipher key1 lower intOf hosts store history
      ⟨host, .work writeStep, (step cipher key1 lower intOf hosts host (.work writeStep)).1,
        (step cipher key1 lower intOf hosts host (.work writeStep)).2⟩ := by
  obtain ⟨directory, process⟩ := host
  cases process with
  | creatingSecrets sharesNonce bytes writing =>
    obtain ⟨candidate, possible, held, default, pending⟩ := sound
    have empty : StoreFile.secrets.contents candidate = defaultSecretsData := default
    apply kept_writing .secrets (fun moved => ensureShares cipher floats key1 moved defaultSecretsData sharesNonce)
      rfl held pending held.writable (fun _ _ => rfl)
    · intro moved heldAfter
      have booting := ensureShares_booting heldAfter sharesNonce
      rw [empty] at booting
      exact kept_of_booting rfl possible heldAfter booting
    · intro moved next heldAfter pendingAfter
      exact kept_of_booting rfl possible heldAfter ⟨default, pendingAfter⟩
  | creatingShares secrets bytes writing =>
    obtain ⟨candidate, possible, held, loaded, default, pending⟩ := sound
    have empty : StoreFile.shares.contents candidate = defaultSharesData := default
    apply kept_writing .shares (fun _ => booted floats secrets defaultSharesData) rfl held pending held.writable
      (fun _ _ => rfl)
    · intro moved heldAfter
      refine kept_of_booting rfl possible heldAfter ?_
      show Booting cipher key1 moved candidate (booted floats secrets defaultSharesData)
      rw [loaded, ← empty, booted_contents]
      exact rfl
    · intro moved next heldAfter pendingAfter
      exact kept_of_booting rfl possible heldAfter ⟨loaded, default, pendingAfter⟩
  | saving memory post file answer bytes writing =>
    obtain ⟨carriedOut, held, writable, others, pending⟩ := sound
    apply kept_writing file (fun _ => .answering memory post (.ok answer)) rfl held pending writable others
    · intro moved heldAfter
      exact kept_of_quiet rfl rfl rfl ⟨carriedOut, heldAfter, fun _ refused => by cases refused⟩
    · intro moved next heldAfter pendingAfter
      exact kept_of_quiet rfl rfl rfl ⟨carriedOut, heldAfter, writable, others, pendingAfter⟩
  | _ => exact kept_of_same rfl (by simp) sound

theorem Held.set_other {directory : Directory} {candidate : Store} {name : String}
    (held : Held cipher key1 floats directory candidate) (notSecrets : name ≠ SECRETS_FILENAME)
    (notShares : name ≠ SHARES_FILENAME) (bytes : Bytes) :
    Held cipher key1 floats (Dict.set directory name bytes) candidate := by
  refine ⟨held.writable, fun file => ?_⟩
  have apart : file.path ≠ name := by
    cases file with
    | secrets => exact notSecrets.symm
    | shares => exact notShares.symm
  rw [Dict.get_set_ne _ _ apart]
  exact held.onDisk file

theorem Pending.set_other {directory : Directory} {file : StoreFile} {next : Store} {bytes : Bytes} {writing : Writing}
    {name : String} (pending : Pending cipher key1 floats directory file next bytes writing)
    (permanent : ¬Temporary name) (others : Bytes) :
    Pending cipher key1 floats (Dict.set directory name others) file next bytes writing :=
  ⟨pending.sealed, pending.holds.set_other permanent others, pending.going⟩

theorem kept_elsewhere (sound : Sound cipher key1 lower intOf hosts (settled lower intOf hosts store history)
    (inFlight history) host) (name : String) (bytes : Bytes) :
    Kept cipher key1 lower intOf hosts store history
      ⟨host, .elsewhere name bytes, (step cipher key1 lower intOf hosts host (.elsewhere name bytes)).1,
        (step cipher key1 lower intOf hosts host (.elsewhere name bytes)).2⟩ := by
  dsimp only [step]
  by_cases protectedName : name = SECRETS_FILENAME ∨ name = SHARES_FILENAME ∨ name.toList.head? = some '.'
  · rw [if_pos protectedName]
    exact kept_of_same rfl (by simp) sound
  · rw [if_neg protectedName]
    obtain ⟨notSecrets, notBoth⟩ := not_or.mp protectedName
    obtain ⟨notShares, notHidden⟩ := not_or.mp notBoth
    -- what somebody else writes is no temporary file either
    have permanent : ¬Temporary name := not_temporary notHidden
    obtain ⟨directory, process⟩ := host
    cases process with
    | down =>
      obtain ⟨candidate, possible, held⟩ := sound
      exact kept_of_quiet rfl rfl rfl ⟨candidate, possible, held.set_other notSecrets notShares bytes⟩
    | failed => exact sound.elim
    | creatingSecrets sharesNonce data writing =>
      obtain ⟨candidate, possible, held, default, pending⟩ := sound
      exact kept_of_quiet rfl rfl rfl
        ⟨candidate, possible, held.set_other notSecrets notShares bytes, default, pending.set_other permanent bytes⟩
    | creatingShares secrets data writing =>
      obtain ⟨candidate, possible, held, loaded, default, pending⟩ := sound
      exact kept_of_quiet rfl rfl rfl ⟨candidate, possible, held.set_other notSecrets notShares bytes, loaded, default,
        pending.set_other permanent bytes⟩
    | running memory =>
      exact kept_of_quiet rfl rfl rfl ⟨sound.1, sound.2.set_other notSecrets notShares bytes⟩
    | saving memory post file answer data writing =>
      obtain ⟨carriedOut, held, writable, others, pending⟩ := sound
      exact kept_of_quiet rfl rfl rfl ⟨carriedOut, held.set_other notSecrets notShares bytes, writable, others,
        pending.set_other permanent bytes⟩
    | answering memory post answer =>
      obtain ⟨carriedOut, held, refused⟩ := sound
      exact kept_of_quiet rfl rfl rfl ⟨carriedOut, held.set_other notSecrets notShares bytes, refused⟩

/-- The step lemma. -/
theorem kept_step (sound : Sound cipher key1 lower intOf hosts (settled lower intOf hosts store history)
    (inFlight history) host) (event : Event floats) :
    Kept cipher key1 lower intOf hosts store history
      ⟨host, event, (step cipher key1 lower intOf hosts host event).1,
        (step cipher key1 lower intOf hosts host event).2⟩ := by
  cases event with
  | start secretsNonce sharesNonce => exact kept_start sound secretsNonce sharesNonce
  | work writeStep => exact kept_work sound writeStep
  | post post nonce => exact kept_post sound post nonce
  | answer => exact kept_answer sound
  | kill => exact kept_kill sound
  | elsewhere name bytes => exact kept_elsewhere sound name bytes

end Preservation

end Steps

/-! ## Runs -/

/-- From a directory that has a store, over any number of requests, kills and boots: no boot
fails, a server that waits for requests holds what it has booted with and acknowledged, and a
boot comes up with what was held at the last boot or acknowledgement, or with that after the
one request that a kill has cut off since. -/
theorem boot_recovers (cipher : Cipher) {floats : FloatText} (key1 : String) (lower : String → String)
    (intOf : String → Option Int) (hosts : Json) (store : Store) (directory : Directory)
    (held : Held cipher key1 floats directory store) (events : List (Event floats)) :
    ∀ earlier transition later,
      transitions (step cipher key1 lower intOf hosts) ⟨directory, .down⟩ events = earlier ++ transition :: later →
      transition.after.process ≠ .failed ∧
      (∀ memory, transition.after.process = .running memory →
        memory = settled lower intOf hosts store (earlier ++ [transition])) ∧
      ∀ memory, bootedWith transition = some memory →
        memory = settled lower intOf hosts store earlier ∨
          ∃ post, inFlight earlier = some post ∧
            memory = applied lower intOf hosts (settled lower intOf hosts store earlier) post := by
  intro earlier transition later shape
  have invariant := @invariant_of_history _ _ _ (step cipher key1 lower intOf hosts)
    (fun history host => Sound cipher key1 lower intOf hosts (settled lower intOf hosts store history)
      (inFlight history) host) (fun _ => True) [] ⟨directory, .down⟩ events
    (by
      rintro history ⟨before, event, output, after⟩ _ sound stepped
      have kept := kept_step sound event
      rw [stepped] at kept
      exact kept.1)
    ⟨store, .inl rfl, held⟩ (fun _ _ => trivial)
  have before := invariant.1 earlier transition later shape
  have stepped := step_of_mem_transitions (shape ▸ List.mem_append_right earlier List.mem_cons_self)
  have kept := kept_step before transition.input
  rw [stepped] at kept
  obtain ⟨sound, found⟩ := kept
  refine ⟨fun failed => ?_, fun memory running => ?_, found⟩
  · rw [Sound, failed] at sound
    exact sound
  · rw [Sound, running] at sound
    exact sound.1

/-! ## Two kills -/

def sampleHosts : Json := .dict [("hosts", .dict [("host1", .dict [("status", .str "local")])])]

/-- What a client posts of a secret. -/
def sampleMetadata : Document noFloats where
  value := .dict [("uuid", .str "u1"), ("treshold", .int 2), ("shares_saved", .int 3)]
  writable := ⟨by decide, trivial, trivial, trivial, trivial⟩

def samplePost (name : String) : Post noFloats :=
  .secret name (some "host1") (.ok sampleMetadata) ""

def writeSteps (unique : String) : List (Event noFloats) :=
  [.work (.mkstemp unique), .work .flush, .work .fsync, .work .replace]

/-- A first boot; two requests, each cut off by a kill after its file has been replaced. -/
def interruptedRun : List (Event noFloats) :=
  .start sampleNonce sampleNonce :: writeSteps "1" ++ writeSteps "2" ++ .post (samplePost "a") sampleNonce ::
    writeSteps "3" ++ [.kill, .start sampleNonce sampleNonce, .post (samplePost "b") sampleNonce] ++ writeSteps "4" ++
    [.kill, .start sampleNonce sampleNonce]

def interruptedTransitions : List (Step noFloats) :=
  transitions (step sampleCipher "k" id (fun _ => none) sampleHosts) ⟨[], .down⟩ interruptedRun

/-- The empty directory has the empty store. -/
theorem held_nil : Held sampleCipher "k" noFloats [] ⟨[], []⟩ := by
  constructor
  · intro file
    cases file with
    | secrets => exact noSecrets.writable
    | shares => exact ⟨by decide, ⟨by decide, trivial⟩, trivial⟩
  · intro file
    cases file with
    | secrets => exact .inl ⟨rfl, rfl⟩
    | shares => exact .inl ⟨rfl, rfl⟩

theorem interruptedTransitions_last :
    (interruptedTransitions.getLast?.bind bootedWith).map (·.secrets.map Prod.fst) = some ["a", "b"] := by
  decide +kernel

/-- No boot of the run fails, and the last one comes up with both secrets. -/
theorem boot_recovers_interrupted :
    (∀ transition ∈ interruptedTransitions, transition.after.process ≠ .failed) ∧
      (interruptedTransitions.getLast?.bind bootedWith).map (·.secrets.map Prod.fst) = some ["a", "b"] := by
  refine ⟨fun transition member => ?_, interruptedTransitions_last⟩
  obtain ⟨earlier, later, shape⟩ := List.append_of_mem member
  exact (boot_recovers sampleCipher "k" id (fun _ => none) sampleHosts ⟨[], []⟩ [] held_nil interruptedRun
    earlier transition later shape).1

/-- Neither request was answered, and one boot has come up with both of them. -/
theorem interrupted_twice :
    ¬∀ earlier transition later, interruptedTransitions = earlier ++ transition :: later →
      ∀ memory, bootedWith transition = some memory →
        memory = acknowledged id (fun _ => none) sampleHosts ⟨[], []⟩ earlier ∨
          ∃ post, inFlight earlier = some post ∧
            memory = applied id (fun _ => none) sampleHosts
              (acknowledged id (fun _ => none) sampleHosts ⟨[], []⟩ earlier) post := by
  intro recovers
  have nothing : (acknowledged id (fun _ => none) sampleHosts ⟨[], []⟩ interruptedTransitions.dropLast).secrets.map
      Prod.fst = [] := by
    decide +kernel
  have one : (inFlight interruptedTransitions.dropLast).map (fun post => (applied id (fun _ => none) sampleHosts
      (acknowledged id (fun _ => none) sampleHosts ⟨[], []⟩ interruptedTransitions.dropLast) post).secrets.map
        Prod.fst) = some ["b"] := by
    decide +kernel
  obtain ⟨memory, booted, names⟩ := Option.map_eq_some_iff.mp interruptedTransitions_last
  obtain ⟨transition, last, bootedLast⟩ := Option.bind_eq_some_iff.mp booted
  obtain ⟨earlier, shape⟩ := List.getLast?_eq_some_iff.mp last
  have rest : interruptedTransitions.dropLast = earlier := by rw [shape, List.dropLast_concat]
  rw [rest] at nothing one
  cases recovers earlier transition [] shape memory bootedLast with
  | inl alone =>
    rw [alone, nothing] at names
    cases names
  | inr withPost =>
    obtain ⟨post, flight, alone⟩ := withPost
    rw [flight, Option.map_some, ← alone, names] at one
    exact absurd one (by decide)

end SecretWeb.Server.Recovery
