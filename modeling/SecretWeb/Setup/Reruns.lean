import SecretWeb.Server.Boot
import SecretWeb.Python.Text
import SecretWeb.Setup.Hosts
import SecretWeb.Machine.Runs

/-! # Running setup again

Setup moves the data files it knows of out of the way, generates a new KEY1, writes new
files under it and starts a server with it.  An installation changes through runs of setup,
which may end anywhere, through boots, and through what its servers save. -/

namespace SecretWeb.Setup

open SecretWeb.Python SecretWeb.CryptoFile SecretWeb.Server SecretWeb.Machine

def DATA_FILENAMES : List String :=
  [HOSTS_FILENAME, HOSTS_PLAINTEXT_FILENAME, SITES_FILENAME, SITES_PLAINTEXT_FILENAME, SECRETS_FILENAME]

/-- One run of setup: what is typed in, drawn and read from the environment, and after how
many of its changes to the data directory it ends, unless it passes all its steps. -/
structure SetupRun where
  key1 : String
  hosts : List Host
  ownHostname : String
  ownPort : Int
  now : String
  date : String
  nonce : (path : String) → Nonce
  server : Startup
  interrupted : Option Nat

/-- The data directory of a host, the KEY1s that have been in use there, and the KEY1 of
the server that is running. -/
structure Installation (Ciphertext : Type) where
  directory : Directory Ciphertext
  keys : List String
  serving : Option String

inductive Event where
  | setup (run : SetupRun)
  | boot (startup : Startup)
  | stop
  | persistShares (data : Json) (nonce : Nonce) (written : Bool)
  | persistSecrets (data : Json) (nonce : Nonce) (written : Bool)

section Setup

variable {Ciphertext : Type}

/-! ## Moving files out of the way -/

def existingDataFiles (directory : Directory Ciphertext) : List String :=
  DATA_FILENAMES.filter fun name => (Dict.get directory name).isSome

def archiveCandidate (path suffix : String) : Nat → String
  | 0 => path ++ ".old." ++ suffix
  | counter + 1 => path ++ ".old." ++ suffix ++ "-" ++ toString (counter + 1)

/-- The `while` loop of `_archive_path`. -/
def nextArchive (directory : Directory Ciphertext) (path suffix : String) : (fuel counter : Nat) → String
  | 0, counter => archiveCandidate path suffix counter
  | fuel + 1, counter =>
    if (Dict.get directory (archiveCandidate path suffix counter)).isSome then
      nextArchive directory path suffix fuel (counter + 1)
    else archiveCandidate path suffix counter

/-- One candidate more than there are files is enough. -/
def archivePath (directory : Directory Ciphertext) (path suffix : String) : String :=
  nextArchive directory path suffix directory.length 0

/-- `os.rename(path, archived)`. -/
def archive (suffix : String) (directory : Directory Ciphertext) (name : String) : Directory Ciphertext :=
  match Dict.get directory name with
  | none => directory
  | some file => Dict.set (Dict.erase directory name) (archivePath directory name suffix) file

/-! ## Setup and the servers -/

variable (primitives : Primitives Ciphertext) (indented : Json → File Ciphertext)

/-- The three `cryptofile` calls of `main`, one change each. -/
def SetupRun.saves (run : SetupRun) (ownName : String) : List (Directory Ciphertext → Directory Ciphertext) :=
  let hostsData := buildHostsData run.hosts ownName run.ownPort run.now
  let sitesData := .dict [("sites", .dict [])]
  let secretsData := .dict [("secrets", .dict [])]
  [fun directory => Dict.set directory HOSTS_FILENAME
      (encrypt primitives run.key1 HOSTS_FILE_PURPOSE (run.nonce HOSTS_FILENAME) hostsData),
    fun directory => Dict.set directory HOSTS_PLAINTEXT_FILENAME (indented hostsData),
    fun directory => Dict.set directory SITES_FILENAME
      (encrypt primitives run.key1 SITES_FILE_PURPOSE (run.nonce SITES_FILENAME) sitesData),
    fun directory => Dict.set directory SITES_PLAINTEXT_FILENAME (indented sitesData),
    fun directory => Dict.set directory SECRETS_FILENAME
      (encrypt primitives run.key1 SECRETS_FILE_PURPOSE (run.nonce SECRETS_FILENAME) secretsData)]

/-- Everything `main` changes in the data directory before it starts the server. -/
def SetupRun.changes (run : SetupRun) (existing : List String) :
    List (Directory Ciphertext → Directory Ciphertext) :=
  (existing.map fun name directory => archive run.date directory name) ++
    match matchOwnHost run.hosts run.ownHostname with
    | .ok ownName => run.saves primitives indented ownName
    | .error _ => []

def perform (changes : List (Directory Ciphertext → Directory Ciphertext)) (directory : Directory Ciphertext) :
    Directory Ciphertext :=
  changes.foldl (fun directory change => change directory) directory

/-- The server that setup starts: it gets the new KEY1, and the disk takes what it writes. -/
def SetupRun.startup (run : SetupRun) : Startup :=
  { run.server with key1 := run.key1, writable := fun _ => true }

/-- What the server is that runs after an attempt to start one. -/
def servingAfter (outcome : Except String Config) (key1 : String) (before : Option String) : Option String :=
  match outcome with
  | .ok _ => some key1
  | .error _ => before

/-- The running server saves a file under its own KEY1. -/
def persist (installation : Installation Ciphertext) (path purpose : String) (data : Json) (nonce : Nonce)
    (written : Bool) : Installation Ciphertext :=
  match installation.serving with
  | none => installation
  | some key1 =>
    { installation with
      directory := (save primitives (fun _ => written) installation.directory path key1 purpose nonce data).2 }

/-- One event; its output is what a server that was started reports back. -/
def step (installation : Installation Ciphertext) :
    Event → Option (Except String Config) × Installation Ciphertext
  | .setup run =>
    let existing := existingDataFiles installation.directory
    let changes := run.changes primitives indented existing
    let keys := run.key1 :: installation.keys
    -- `_stop_existing_server` runs only when there is something to archive
    let serving := if existing.isEmpty then installation.serving else none
    match run.interrupted, matchOwnHost run.hosts run.ownHostname with
    | none, .ok _ =>
      let (outcome, directory) := boot primitives indented run.startup (perform changes installation.directory)
      (some outcome, ⟨directory, keys, servingAfter outcome run.key1 serving⟩)
    | none, .error _ => (none, ⟨perform changes installation.directory, keys, serving⟩)
    | some count, _ => (none, ⟨perform (changes.take count) installation.directory, keys, serving⟩)
  | .boot startup =>
    let (outcome, directory) := boot primitives indented startup installation.directory
    (some outcome,
      ⟨directory, startup.key1 :: installation.keys, servingAfter outcome startup.key1 installation.serving⟩)
  | .stop => (none, { installation with serving := none })
  | .persistShares data nonce written =>
    (none, persist primitives installation SHARES_FILENAME SHARES_FILE_PURPOSE data nonce written)
  | .persistSecrets data nonce written =>
    (none, persist primitives installation SECRETS_FILENAME SECRETS_FILE_PURPOSE data nonce written)

/-- A host on which nothing has run yet. -/
def blank : Installation Ciphertext := ⟨[], [], none⟩

variable {primitives indented}

/-! ## Archives are out of the way -/

theorem length_dataFilename {name : String} (known : name ∈ DATA_FILENAMES) : 9 ≤ name.length := by
  have all : ∀ name ∈ DATA_FILENAMES, 9 ≤ name.length := by decide
  exact all name known

theorem length_of_purpose {path purpose : String} (known : Dict.get purposes path = some purpose) :
    path.length ≤ 11 := by
  have all : ∀ entry ∈ purposes, entry.1.length ≤ 11 := by decide
  obtain ⟨before, after, shape, _⟩ := List.lookup_eq_some_iff.mp known
  have member : (path, purpose) ∈ purposes := by
    rw [shape]
    exact List.mem_append_right _ List.mem_cons_self
  exact all _ member

theorem length_archiveCandidate (path suffix : String) (counter : Nat) :
    path.length + 5 ≤ (archiveCandidate path suffix counter).length := by
  have infixLength : (".old." : String).length = 5 := rfl
  cases counter with
  | zero =>
    simp only [archiveCandidate, String.length_append, infixLength]
    omega
  | succ counter =>
    simp only [archiveCandidate, String.length_append, infixLength]
    omega

theorem nextArchive_eq (directory : Directory Ciphertext) (path suffix : String) (fuel counter : Nat) :
    ∃ reached, nextArchive directory path suffix fuel counter = archiveCandidate path suffix reached := by
  induction fuel generalizing counter with
  | zero => exact ⟨counter, rfl⟩
  | succ fuel inductionHypothesis =>
    rw [nextArchive]
    split
    · exact inductionHypothesis (counter + 1)
    · exact ⟨counter, rfl⟩

/-- An archived file is none of the encrypted files. -/
theorem purpose_archivePath {name : String} (known : name ∈ DATA_FILENAMES) (directory : Directory Ciphertext)
    (suffix : String) : Dict.get purposes (archivePath directory name suffix) = none := by
  cases found : Dict.get purposes (archivePath directory name suffix) with
  | none => rfl
  | some purpose =>
    have short := length_of_purpose found
    obtain ⟨reached, candidate⟩ := nextArchive_eq directory name suffix directory.length 0
    have long := length_archiveCandidate name suffix reached
    have base := length_dataFilename known
    rw [archivePath, candidate] at short
    omega

theorem Sealed.archive {keys : Set String} {directory : Directory Ciphertext} {name : String}
    (sealedFiles : Sealed primitives keys directory) (known : name ∈ DATA_FILENAMES) (suffix : String) :
    Sealed primitives keys (archive suffix directory name) := by
  rw [Setup.archive]
  cases Dict.get directory name with
  | none => exact sealedFiles
  | some file =>
    have erased : Sealed primitives keys (Dict.erase directory name) := by
      intro path purpose knownPath blob found
      rw [Dict.get_erase] at found
      by_cases same : path = name
      · rw [if_pos same] at found
        cases found
      · rw [if_neg same] at found
        exact sealedFiles path purpose knownPath blob found
    exact erased.set_other (purpose_archivePath known directory suffix) file

/-- `shares.dta` is not among the files that are archived. -/
theorem get_shares_archive {directory : Directory Ciphertext} {name : String} (known : name ∈ DATA_FILENAMES)
    (suffix : String) :
    Dict.get (archive suffix directory name) SHARES_FILENAME = Dict.get directory SHARES_FILENAME := by
  have other : SHARES_FILENAME ≠ name := by
    rintro rfl
    revert known
    decide
  have elsewhere : SHARES_FILENAME ≠ archivePath directory name suffix := by
    intro same
    have unknown := purpose_archivePath known directory suffix
    rw [← same] at unknown
    cases unknown
  rw [archive]
  cases Dict.get directory name with
  | none => rfl
  | some file => rw [Dict.get_set_ne _ _ elsewhere, Dict.get_erase, if_neg other]

theorem archiveCandidate_injective (path suffix : String) : Function.Injective (archiveCandidate path suffix) := by
  have dash : ("-" : String).length = 1 := rfl
  have differ : ∀ counter, archiveCandidate path suffix 0 ≠ archiveCandidate path suffix (counter + 1) := by
    intro counter same
    have lengths := congrArg String.length same
    simp only [archiveCandidate, String.length_append, dash] at lengths
    omega
  intro left right same
  cases left with
  | zero =>
    cases right with
    | zero => rfl
    | succ right => exact absurd same (differ right)
  | succ left =>
    cases right with
    | zero => exact absurd same.symm (differ left)
    | succ right =>
      have numerals := (String.append_right_inj _).mp same
      exact toString_injective numerals

/-- The loop stops at the first candidate that is free, if the fuel lasts so long. -/
theorem nextArchive_of_first (directory : Directory Ciphertext) (path suffix : String) {fuel counter count : Nat}
    (within : count ≤ fuel) (free : Dict.get directory (archiveCandidate path suffix (counter + count)) = none)
    (taken : ∀ earlier < count, Dict.get directory (archiveCandidate path suffix (counter + earlier)) ≠ none) :
    nextArchive directory path suffix fuel counter = archiveCandidate path suffix (counter + count) := by
  induction fuel generalizing counter count with
  | zero =>
    obtain rfl : count = 0 := by omega
    rfl
  | succ fuel inductionHypothesis =>
    rw [nextArchive]
    cases count with
    | zero => rw [if_neg (by rw [← Nat.add_zero counter, free]; exact Bool.false_ne_true), Nat.add_zero]
    | succ count =>
      have first := taken 0 (Nat.succ_pos count)
      rw [Nat.add_zero] at first
      rw [if_pos (Option.isSome_iff_ne_none.mpr first)]
      have shifted : ∀ earlier, counter + 1 + earlier = counter + (earlier + 1) := fun earlier => by omega
      rw [← shifted count] at free ⊢
      refine inductionHypothesis (by omega) free fun earlier before => ?_
      rw [shifted]
      exact taken (earlier + 1) (by omega)

/-! ## The changes of a run -/

/-- What every change preserves holds after any number of them. -/
theorem perform_preserves {Invariant : Directory Ciphertext → Prop}
    {changes : List (Directory Ciphertext → Directory Ciphertext)} {directory : Directory Ciphertext}
    (kept : ∀ change ∈ changes, ∀ directory, Invariant directory → Invariant (change directory))
    (start : Invariant directory) : Invariant (perform changes directory) := by
  induction changes generalizing directory with
  | nil => exact start
  | cons change rest inductionHypothesis =>
    exact inductionHypothesis (fun other member => kept other (List.mem_cons_of_mem _ member))
      (kept change List.mem_cons_self directory start)

theorem mem_existingDataFiles {directory : Directory Ciphertext} {name : String}
    (member : name ∈ existingDataFiles directory) : name ∈ DATA_FILENAMES :=
  (List.mem_filter.mp member).1

theorem Sealed.change {keys : Set String} {run : SetupRun} (used : run.key1 ∈ keys)
    {directory : Directory Ciphertext} {change : Directory Ciphertext → Directory Ciphertext}
    (member : change ∈ run.changes primitives indented (existingDataFiles directory)) :
    ∀ directory, Sealed primitives keys directory → Sealed primitives keys (change directory) := by
  intro current sealedFiles
  rw [SetupRun.changes, List.mem_append] at member
  cases member with
  | inl archives =>
    obtain ⟨name, listed, rfl⟩ := List.mem_map.mp archives
    exact Sealed.archive sealedFiles (mem_existingDataFiles listed) run.date
  | inr saves =>
    cases matched : matchOwnHost run.hosts run.ownHostname with
    | error exception =>
      rw [matched] at saves
      cases saves
    | ok ownName =>
      rw [matched] at saves
      simp only [SetupRun.saves, List.mem_cons, List.not_mem_nil, or_false] at saves
      rcases saves with rfl | rfl | rfl | rfl | rfl
      · exact sealedFiles.set_encrypt rfl used _ _
      · exact sealedFiles.set_other rfl _
      · exact sealedFiles.set_encrypt rfl used _ _
      · exact sealedFiles.set_other rfl _
      · exact sealedFiles.set_encrypt rfl used _ _

/-- The three files under the new KEY1, and `shares.dta` as it was. -/
structure Renewed (primitives : Primitives Ciphertext) (run : SetupRun) (ownName : String)
    (before written : Directory Ciphertext) : Prop where
  hosts : Dict.get written HOSTS_FILENAME = some (encrypt primitives run.key1 HOSTS_FILE_PURPOSE
    (run.nonce HOSTS_FILENAME) (buildHostsData run.hosts ownName run.ownPort run.now))
  sites : Dict.get written SITES_FILENAME = some (encrypt primitives run.key1 SITES_FILE_PURPOSE
    (run.nonce SITES_FILENAME) (.dict [("sites", .dict [])]))
  secrets : Dict.get written SECRETS_FILENAME = some (encrypt primitives run.key1 SECRETS_FILE_PURPOSE
    (run.nonce SECRETS_FILENAME) (.dict [("secrets", .dict [])]))
  shares : Dict.get written SHARES_FILENAME = Dict.get before SHARES_FILENAME

theorem renewed_saves (run : SetupRun) (ownName : String) (directory : Directory Ciphertext) :
    Renewed primitives run ownName directory (perform (run.saves primitives indented ownName) directory) := by
  simp only [SetupRun.saves, perform, List.foldl_cons, List.foldl_nil]
  refine ⟨?_, ?_, ?_, ?_⟩
  · rw [Dict.get_set_ne _ _ (by decide), Dict.get_set_ne _ _ (by decide), Dict.get_set_ne _ _ (by decide),
      Dict.get_set_ne _ _ (by decide), Dict.get_set_self]
  · rw [Dict.get_set_ne _ _ (by decide), Dict.get_set_ne _ _ (by decide), Dict.get_set_self]
  · rw [Dict.get_set_self]
  · rw [Dict.get_set_ne _ _ (by decide), Dict.get_set_ne _ _ (by decide), Dict.get_set_ne _ _ (by decide),
      Dict.get_set_ne _ _ (by decide), Dict.get_set_ne _ _ (by decide)]

/-- What is there when setup starts the server. -/
theorem renewed_changes {run : SetupRun} {ownName : String} (directory : Directory Ciphertext)
    (matched : matchOwnHost run.hosts run.ownHostname = .ok ownName) :
    Renewed primitives run ownName directory
      (perform (run.changes primitives indented (existingDataFiles directory)) directory) := by
  -- `shares.dta` is not among the data files that are archived
  have archived : Dict.get (perform ((existingDataFiles directory).map fun name directory =>
      archive run.date directory name) directory) SHARES_FILENAME = Dict.get directory SHARES_FILENAME := by
    refine @perform_preserves _ (fun current => Dict.get current SHARES_FILENAME =
      Dict.get directory SHARES_FILENAME) _ directory ?_ rfl
    intro change member current before
    obtain ⟨name, listed, rfl⟩ := List.mem_map.mp member
    rw [get_shares_archive (mem_existingDataFiles listed), before]
  have saved : Renewed primitives run ownName _ (perform (run.saves primitives indented ownName)
      (perform ((existingDataFiles directory).map fun name directory => archive run.date directory name)
        directory)) := renewed_saves run ownName _
  have shape : perform (run.changes primitives indented (existingDataFiles directory)) directory =
      perform (run.saves primitives indented ownName)
        (perform ((existingDataFiles directory).map fun name directory => archive run.date directory name)
          directory) := by
    simp only [SetupRun.changes, matched, perform, List.foldl_append]
  rw [shape]
  exact ⟨saved.hosts, saved.sites, saved.secrets, saved.shares.trans archived⟩

/-- One run that passes all its steps, on files that were written under earlier KEY1s: the
server comes up exactly when there was no `shares.dta`. -/
theorem setup_boots (rejects : RejectsWrongKey primitives) {installation : Installation Ciphertext} {run : SetupRun}
    {ownName : String} (sealedFiles : Sealed primitives {key1 | key1 ∈ installation.keys} installation.directory)
    (passes : run.interrupted = none) (matched : matchOwnHost run.hosts run.ownHostname = .ok ownName)
    (fresh : run.key1 ∉ installation.keys) :
    (∃ config, (step primitives indented installation (.setup run)).1 = some (.ok config)) ↔
      Dict.get installation.directory SHARES_FILENAME = none := by
  obtain ⟨hosts, sites, secrets, shares⟩ := @renewed_changes _ primitives indented run ownName
    installation.directory matched
  have booted := @boot_of_saved _ primitives indented _ run.startup _ _ _ _ _ _ hosts sites secrets
  have output : (step primitives indented installation (.setup run)).1 =
      some (boot primitives indented run.startup (perform (run.changes primitives indented
        (existingDataFiles installation.directory)) installation.directory)).1 := by
    simp only [step, passes, matched]
  rw [output, booted]
  -- an old `shares.dta` was written under another KEY1
  cases there : Dict.get installation.directory SHARES_FILENAME with
  | none =>
    rw [there] at shares
    rw [ensureSharesFile, ensure_absent _ _ shares rfl]
    simp [startupGuard]
  | some blob =>
    rw [there] at shares
    obtain ⟨message, failed⟩ := decrypt_other rejects (sealedFiles _ _ rfl blob there) fresh
    rw [ensureSharesFile, ensure_present _ _ shares]
    have sameKey : run.startup.key1 = run.key1 := rfl
    rw [sameKey, failed]
    simp [startupGuard]

/-! ## Reachable installations -/

/-- Every file was written under a KEY1 that has been in use, and so is what a running
server is going to write. -/
structure Consistent (primitives : Primitives Ciphertext) (installation : Installation Ciphertext) : Prop where
  files : Sealed primitives {key1 | key1 ∈ installation.keys} installation.directory
  serving : ∀ key1, installation.serving = some key1 → key1 ∈ installation.keys

theorem consistent_blank : Consistent primitives (blank : Installation Ciphertext) where
  files := fun _ _ _ _ found => by cases found
  serving := fun _ running => by cases running

theorem servingAfter_mem {outcome : Except String Config} {key1 : String} {before : Option String}
    {keys : List String} (kept : ∀ key, before = some key → key ∈ keys) :
    ∀ key, servingAfter outcome key1 before = some key → key ∈ key1 :: keys := by
  intro key running
  cases outcome with
  | ok config =>
    cases running
    exact List.mem_cons_self
  | error report => exact List.mem_cons_of_mem _ (kept key running)

theorem Consistent.persist {installation : Installation Ciphertext} (consistent : Consistent primitives installation)
    {path purpose : String} (known : Dict.get purposes path = some purpose) (data : Json) (nonce : Nonce)
    (written : Bool) :
    Consistent primitives (persist primitives installation path purpose data nonce written) := by
  rw [Setup.persist]
  split
  · exact consistent
  · rename_i key1 running
    exact ⟨consistent.files.save known (consistent.serving key1 running) nonce data, consistent.serving⟩

/-- The step lemma. -/
theorem Consistent.step {installation : Installation Ciphertext} (consistent : Consistent primitives installation)
    (event : Event) : Consistent primitives (step primitives indented installation event).2 := by
  cases event with
  | setup run =>
    have used : run.key1 ∈ ({key1 | key1 ∈ run.key1 :: installation.keys} : Set String) := List.mem_cons_self
    have before : Sealed primitives {key1 | key1 ∈ run.key1 :: installation.keys} installation.directory :=
      consistent.files.mono fun key member => List.mem_cons_of_mem _ member
    have changed : ∀ changes : List (Directory Ciphertext → Directory Ciphertext),
        (∀ change ∈ changes, change ∈ run.changes primitives indented (existingDataFiles installation.directory)) →
        Sealed primitives {key1 | key1 ∈ run.key1 :: installation.keys}
          (perform changes installation.directory) :=
      fun changes listed => perform_preserves (fun change member => Sealed.change used (listed change member)) before
    -- a server that was running is stopped, if there is anything to archive
    have stopped : ∀ key, (if (existingDataFiles installation.directory).isEmpty then installation.serving
        else none) = some key → key ∈ installation.keys := by
      intro key running
      split at running
      · exact consistent.serving key running
      · cases running
    simp only [Setup.step]
    split
    · exact ⟨Sealed.boot (changed _ fun _ member => member) used, servingAfter_mem stopped⟩
    · exact ⟨changed _ fun _ member => member, fun key running => List.mem_cons_of_mem _ (stopped key running)⟩
    · exact ⟨changed _ fun _ member => List.mem_of_mem_take member,
        fun key running => List.mem_cons_of_mem _ (stopped key running)⟩
  | boot startup =>
    have before : Sealed primitives {key1 | key1 ∈ startup.key1 :: installation.keys} installation.directory :=
      consistent.files.mono fun key member => List.mem_cons_of_mem _ member
    exact ⟨before.boot List.mem_cons_self, servingAfter_mem consistent.serving⟩
  | stop => exact ⟨consistent.files, fun _ running => by cases running⟩
  | persistShares data nonce written => exact consistent.persist rfl data nonce written
  | persistSecrets data nonce written => exact consistent.persist rfl data nonce written

end Setup

/-- In every history of a host, a run of setup that passes all its steps with a KEY1 that
has not been in use leaves a host that boots exactly when it found no `shares.dta`. -/
theorem rerun_boots_iff {Ciphertext : Type} (primitives : Primitives Ciphertext)
    (indented : Json → File Ciphertext) (rejects : RejectsWrongKey primitives) (events : List Event) :
    ∀ transition ∈ transitions (step primitives indented) blank events, ∀ run ownName,
      transition.input = .setup run → run.interrupted = none →
      matchOwnHost run.hosts run.ownHostname = .ok ownName → run.key1 ∉ transition.before.keys →
      ((∃ config, transition.output = some (.ok config)) ↔
        Dict.get transition.before.directory SHARES_FILENAME = none) := by
  intro transition member run ownName input passes matched fresh
  have reached := (@invariant_of_steps _ _ _ (step primitives indented) (Consistent primitives) (fun _ => True)
    blank events
    (fun transition _ consistent stepped => by
      have after := @Consistent.step _ primitives indented _ consistent transition.input
      rwa [stepped] at after)
    consistent_blank fun _ _ => trivial).1 transition member
  have stepped := step_of_mem_transitions member
  rw [input] at stepped
  have boots := @setup_boots _ primitives indented rejects _ run ownName reached.1.files passes matched fresh
  rwa [stepped] at boots

/-! ## Two runs -/

/-- A sealed document that remembers what it was sealed with. -/
def samplePrimitives : Primitives (Data.Bytes × Data.Bytes × Json × Data.Bytes) where
  deriveKey := fun key1 _ => Data.encodeUtf8 key1
  aesGcmEncrypt := fun key nonce plaintext associated => (key, nonce, plaintext, associated)
  aesGcmDecrypt := fun key nonce sealedDocument associated =>
    if sealedDocument.1 = key ∧ sealedDocument.2.1 = nonce ∧ sealedDocument.2.2.2 = associated then
      some sealedDocument.2.2.1
    else none
  aesGcmDecrypt_encrypt := by simp

theorem samplePrimitives_rejects : RejectsWrongKey samplePrimitives := by
  intro key1 other different purpose nonce plaintext
  have keys : Data.encodeUtf8 key1 ≠ Data.encodeUtf8 other := by
    intro same
    have decoded := congrArg Data.decodeUtf8 same
    rw [Data.decodeUtf8_encodeUtf8, Data.decodeUtf8_encodeUtf8] at decoded
    exact different (Option.some.inj decoded)
  simp [samplePrimitives, keys]

def sampleNonce : Nonce := ⟨List.replicate NONCE_SIZE 0, by simp⟩

def sampleSetup (key1 : String) : SetupRun where
  key1 := key1
  hosts := [⟨"host1", "10.0.0.1", [], "server"⟩, ⟨"host2", "10.0.0.2", [], "server"⟩,
    ⟨"host3", "10.0.0.3", [], "server"⟩, ⟨"host4", "10.0.0.4", [], "controller"⟩]
  ownHostname := "host1"
  ownPort := 59222
  now := "2026-01-01T00:00:00+00:00"
  date := "26-01-01"
  nonce := fun _ => sampleNonce
  server := ⟨key1, "host1", 59222, "2026-01-01T00:00:00+00:00", fun _ => sampleNonce, fun _ => true⟩
  interrupted := none

def sampleIndented (_ : Json) : File (Data.Bytes × Data.Bytes × Json × Data.Bytes) := .short []

/-- A run that was cut off when all its files were written. -/
def sampleCut : SetupRun := { sampleSetup "k1" with interrupted := some 5 }

/-- The run after it, before any server has written shares. -/
theorem rerun_boots_iff_cut :
    ∃ config, (step samplePrimitives sampleIndented (run (step samplePrimitives sampleIndented) blank
      [.setup sampleCut]) (.setup (sampleSetup "k2"))).1 = some (.ok config) :=
  (rerun_boots_iff samplePrimitives sampleIndented samplePrimitives_rejects
    [.setup sampleCut, .setup (sampleSetup "k2")] _ (.tail _ List.mem_cons_self) (sampleSetup "k2") "host1" rfl rfl rfl
    (by decide)).mpr (by decide +kernel)

/-- The second run: the server it starts cannot open the `shares.dta` of the first. -/
theorem rerun_fails :
    (transitions (step samplePrimitives sampleIndented) blank
      [.setup (sampleSetup "k1"), .setup (sampleSetup "k2")]).map (fun transition => transition.output.map
        Except.isOk) = [some true, some false] := by
  decide +kernel

end SecretWeb.Setup
