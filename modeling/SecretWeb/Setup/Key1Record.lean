import SecretWeb.Setup.ConfigIni
import SecretWeb.Setup.Reruns

/-! # Which KEY1 config.ini points at

Setup from one change of the disk to the next.  It writes the data files under a new KEY1
long before it has published that KEY1 and recorded the uuid, and it may end at any point in
between; a record of an earlier run stays in `config.ini` all the while. -/

namespace SecretWeb.Setup

open SecretWeb.Python SecretWeb.CryptoFile SecretWeb.Server SecretWeb.Machine

/-- A run of setup, and the uuid its `ShamirSecret` draws. -/
structure KeyRun where
  setup : SetupRun
  uuid4 : String

/-- Where `main` is; what it has in its variables. -/
inductive Phase (Ciphertext : Type) where
  | idle
  | archiving (run : KeyRun) (left : List String)
  | saving (run : KeyRun) (ownName : String) (config : Options)
      (left : List (Directory Ciphertext → Directory Ciphertext))
  | initiating (run : KeyRun) (ownName : String) (config : Options) (opened : Bool)
  | starting (run : KeyRun) (ownName : String) (config : Options)
  | polling (run : KeyRun) (ownName : String) (config : Options)
  | publishing (run : KeyRun) (ownName : String) (config : Options) (left : List Host)
  | recording (run : KeyRun) (config : Options) (opened : Bool)
  | handoff

/-- The disk of a host, the KEY1 that was dealt under each uuid, and setup. -/
structure Bootstrap (Ciphertext : Type) where
  directory : Directory Ciphertext
  config : ConfigFile
  dealt : Dict String
  phase : Phase Ciphertext

/-- `proceed` is the next change; `tear` is a part of a write to `config.ini`; `quit` stands for
every way to end early: an exit, an exception, a kill. -/
inductive SetupEvent where
  | begin (run : KeyRun)
  | proceed
  | tear (tear : Tear)
  | quit

section Machine

variable {Ciphertext : Type} (primitives : Primitives Ciphertext) (indented : Json → File Ciphertext)

def KeyRun.otherHosts (run : KeyRun) (ownName : String) : List Host :=
  run.setup.hosts.filter fun host => host.name ≠ ownName

/-- The options with what `_publish_key1_to_network` returns. -/
def KeyRun.record (run : KeyRun) (ownName : String) (config : Options) : Options :=
  let (shares, treshold) := sharesAndTreshold (run.otherHosts ownName)
  setKey1Metadata config run.uuid4 treshold shares

def proceed (host : Bootstrap Ciphertext) : Bootstrap Ciphertext :=
  match host.phase with
  | .idle => host
  | .archiving run (name :: left) =>
    { host with directory := archive run.setup.date host.directory name, phase := .archiving run left }
  | .archiving run [] =>
    match loadOrDefaultConfig host.config, matchOwnHost run.setup.hosts run.setup.ownHostname with
    | some config, .ok ownName =>
      { host with phase := .saving run ownName config (run.setup.saves primitives indented ownName) }
    | _, _ => { host with phase := .idle }
  | .saving run ownName config (change :: left) =>
    { host with directory := change host.directory, phase := .saving run ownName config left }
  | .saving run ownName config [] => { host with phase := .initiating run ownName (setInitiated config) false }
  -- `open(config_file, "w")` empties the file
  | .initiating run ownName config false =>
    { host with config := .options [], phase := .initiating run ownName config true }
  | .initiating run ownName config true =>
    { host with config := .options config, phase := .starting run ownName config }
  | .starting run ownName config =>
    match boot primitives indented run.setup.startup host.directory with
    | (.ok _, directory) => { host with directory := directory, phase := .polling run ownName config }
    | (.error _, directory) => { host with directory := directory, phase := .idle }
  | .polling run ownName config =>
    { host with dealt := Dict.set host.dealt run.uuid4 run.setup.key1,
                phase := .publishing run ownName config (run.otherHosts ownName) }
  | .publishing run ownName config (_ :: left) => { host with phase := .publishing run ownName config left }
  | .publishing run ownName config [] => { host with phase := .recording run (run.record ownName config) false }
  | .recording run config false => { host with config := .options [], phase := .recording run config true }
  | .recording _ config true => { host with config := .options config, phase := .handoff }
  | .handoff => { host with phase := .idle }

/-- One step; one that is not due changes nothing. -/
def setupStep (host : Bootstrap Ciphertext) : SetupEvent → Unit × Bootstrap Ciphertext
  | .begin run =>
    match host.phase with
    | .idle => ((), { host with phase := .archiving run (existingDataFiles host.directory) })
    | _ => ((), host)
  | .proceed => ((), proceed primitives indented host)
  | .tear tear =>
    match host.phase with
    | .initiating _ _ config true => ((), { host with config := tear.beginning config })
    | .recording _ config true => ((), { host with config := tear.beginning config })
    | _ => ((), host)
  | .quit => ((), { host with phase := .idle })

/-! ## What a boot relies on -/

/-- The files that setup writes under KEY1, with their purposes. -/
def dataFiles : Dict String :=
  [(HOSTS_FILENAME, HOSTS_FILE_PURPOSE), (SITES_FILENAME, SITES_FILE_PURPOSE),
    (SECRETS_FILENAME, SECRETS_FILE_PURPOSE)]

/-- Those of them that are there were written under this KEY1, so that it opens them. -/
structure UnderKey (key1 : String) (directory : Directory Ciphertext) : Prop where
  sealed : ∀ entry ∈ dataFiles, ∀ blob, Dict.get directory entry.1 = some blob →
    SealedUnder primitives {key1} entry.2 blob
  opens : ∀ entry ∈ dataFiles, ∀ blob, Dict.get directory entry.1 = some blob →
    ∃ data, decrypt primitives key1 entry.2 blob = .ok data

/-- If `config.ini` is initiated and says under which uuid KEY1 was published, the data files
are under the KEY1 that was dealt under that uuid. -/
def Points (host : Bootstrap Ciphertext) : Prop :=
  ∀ entries uuid treshold shares, host.config = .options entries → initiated entries = true →
    key1Metadata entries = some (uuid, treshold, shares) →
    ∃ key1, Dict.get host.dealt uuid = some key1 ∧ UnderKey primitives key1 host.directory

/-- `config.ini` carries no complete record of a KEY1. -/
def Unrecorded (config : ConfigFile) : Prop := ∀ entries, config = .options entries → key1Metadata entries = none

/-- The step writes a data file. -/
def WritesData (transition : Transition (Bootstrap Ciphertext) SetupEvent Unit) : Prop :=
  transition.input = .proceed ∧
    ∃ run ownName config change left, transition.before.phase = .saving run ownName config (change :: left)

variable {primitives indented}

/-! ## The data files -/

theorem UnderKey.of_sealed {key1 : String} {directory : Directory Ciphertext}
    (sealedFiles : ∀ entry ∈ dataFiles, ∀ blob, Dict.get directory entry.1 = some blob →
      SealedUnder primitives {key1} entry.2 blob) : UnderKey primitives key1 directory := by
  refine ⟨sealedFiles, fun entry member blob found => ?_⟩
  obtain ⟨other, same, nonce, data, rfl⟩ := sealedFiles entry member blob found
  obtain rfl : other = key1 := same
  exact ⟨data, decrypt_same _ _ _ _⟩

theorem purposes_of_dataFiles {entry : String × String} (member : entry ∈ dataFiles) :
    Dict.get purposes entry.1 = some entry.2 := by
  have all : ∀ entry ∈ dataFiles, Dict.get purposes entry.1 = some entry.2 := by decide
  exact all entry member

/-- Moving files out of the way leaves those that stay under their KEY1. -/
theorem UnderKey.archive {key1 : String} {directory : Directory Ciphertext} {name : String}
    (under : UnderKey primitives key1 directory) (known : name ∈ DATA_FILENAMES) (suffix : String) :
    UnderKey primitives key1 (archive suffix directory name) := by
  apply UnderKey.of_sealed
  intro entry member blob found
  rw [Setup.archive] at found
  cases there : Dict.get directory name with
  | none =>
    rw [there] at found
    exact under.sealed entry member blob found
  | some file =>
    rw [there] at found
    have elsewhere : entry.1 ≠ archivePath directory name suffix := by
      intro same
      have purpose := purposes_of_dataFiles member
      rw [same, purpose_archivePath known directory suffix] at purpose
      cases purpose
    dsimp only at found
    rw [Dict.get_set_ne _ _ elsewhere, Dict.get_erase] at found
    split at found
    · cases found
    · exact under.sealed entry member blob found

/-- All three are there, under this KEY1. -/
structure SavedFiles (primitives : Primitives Ciphertext) (key1 : String) (directory : Directory Ciphertext) :
    Prop where
  hosts : ∃ nonce data, Dict.get directory HOSTS_FILENAME = some (encrypt primitives key1 HOSTS_FILE_PURPOSE nonce data)
  sites : ∃ nonce data, Dict.get directory SITES_FILENAME = some (encrypt primitives key1 SITES_FILE_PURPOSE nonce data)
  secrets : ∃ nonce data,
    Dict.get directory SECRETS_FILENAME = some (encrypt primitives key1 SECRETS_FILE_PURPOSE nonce data)

theorem SavedFiles.underKey {key1 : String} {directory : Directory Ciphertext}
    (saved : SavedFiles primitives key1 directory) : UnderKey primitives key1 directory := by
  apply UnderKey.of_sealed
  intro entry member blob found
  simp only [dataFiles, List.mem_cons, List.not_mem_nil, or_false] at member
  rcases member with rfl | rfl | rfl
  · obtain ⟨nonce, data, there⟩ := saved.hosts
    obtain rfl := Option.some.inj (found.symm.trans there)
    exact ⟨key1, rfl, nonce, data, rfl⟩
  · obtain ⟨nonce, data, there⟩ := saved.sites
    obtain rfl := Option.some.inj (found.symm.trans there)
    exact ⟨key1, rfl, nonce, data, rfl⟩
  · obtain ⟨nonce, data, there⟩ := saved.secrets
    obtain rfl := Option.some.inj (found.symm.trans there)
    exact ⟨key1, rfl, nonce, data, rfl⟩

theorem savedFiles_perform (run : SetupRun) (ownName : String) (directory : Directory Ciphertext) :
    SavedFiles primitives run.key1 (perform (run.saves primitives indented ownName) directory) := by
  obtain ⟨hosts, sites, secrets, _⟩ := @renewed_saves _ primitives indented run ownName directory
  exact ⟨⟨_, _, hosts⟩, ⟨_, _, sites⟩, ⟨_, _, secrets⟩⟩

theorem get_ensure_other {directory : Directory Ciphertext} {writable : String → Bool}
    {path purpose key1 other : String} (nonce : Nonce) (data : Json) (different : other ≠ path) :
    Dict.get (ensure primitives writable directory path key1 purpose nonce data).2 other =
      Dict.get directory other := by
  rw [ensure]
  cases Dict.get directory path with
  | some blob => rfl
  | none =>
    dsimp only
    rw [save, atomicWriteBytes]
    split
    · rename_i outcome
      split at outcome
      · cases outcome
      · cases outcome
        rfl
    · rename_i outcome
      split at outcome
      · cases outcome
        exact Dict.get_set_ne _ _ different
      · cases outcome

/-- A server that finds all three leaves them as they are. -/
theorem SavedFiles.boot {startup : Startup} {directory : Directory Ciphertext}
    (saved : SavedFiles primitives startup.key1 directory) :
    SavedFiles primitives startup.key1 (boot primitives indented startup directory).2 := by
  obtain ⟨hostsNonce, hostsData, hosts⟩ := saved.hosts
  obtain ⟨sitesNonce, sitesData, sites⟩ := saved.sites
  obtain ⟨secretsNonce, secretsData, secrets⟩ := saved.secrets
  -- only the shares file may still be created
  have disk : (Server.boot primitives indented startup directory).2 =
      (ensureSharesFile primitives startup directory).2 := by
    rw [boot_of_saved hosts sites secrets]
    cases ensureSharesFile primitives startup directory with
    | mk outcome after =>
      dsimp only
      split
      · rfl
      · rfl
  have kept : ∀ name, name ≠ SHARES_FILENAME → Dict.get (Server.boot primitives indented startup directory).2 name =
      Dict.get directory name := by
    intro name different
    rw [disk]
    exact get_ensure_other _ _ different
  refine ⟨⟨hostsNonce, hostsData, ?_⟩, ⟨sitesNonce, sitesData, ?_⟩, ⟨secretsNonce, secretsData, ?_⟩⟩
  · rw [kept _ (by decide), hosts]
  · rw [kept _ (by decide), sites]
  · rw [kept _ (by decide), secrets]

/-! ## The invariant -/

section Invariant

variable (primitives indented)

/-- The data files are under the KEY1 of the run, and neither `config.ini` nor what is going to
be written there has a record. -/
structure Unpublished (run : KeyRun) (config : Options) (host : Bootstrap Ciphertext) : Prop where
  ordered : UuidFirst config
  blank : key1Metadata config = none
  unrecorded : Unrecorded host.config
  saved : SavedFiles primitives run.setup.key1 host.directory

def PhaseSound (host : Bootstrap Ciphertext) : Prop :=
  match host.phase with
  | .idle => True
  | .archiving _ left => ∀ name ∈ left, name ∈ DATA_FILENAMES
  | .saving run ownName config left =>
    loadOrDefaultConfig host.config = some config ∧
      ∃ written start, run.setup.saves primitives indented ownName = written ++ left ∧
        host.directory = perform written start ∧ (written ≠ [] → Unrecorded host.config)
  | .initiating run _ config _ => Unpublished primitives run config host
  | .starting run _ config => Unpublished primitives run config host
  | .polling run _ config => Unpublished primitives run config host
  | .publishing run _ config _ =>
    Unpublished primitives run config host ∧ Dict.get host.dealt run.uuid4 = some run.setup.key1
  | .recording run config _ =>
    UuidFirst config ∧ Dict.get config "key1-uuid" = some run.uuid4 ∧
      Dict.get host.dealt run.uuid4 = some run.setup.key1 ∧ SavedFiles primitives run.setup.key1 host.directory
  | .handoff => True

structure BootstrapSound (host : Bootstrap Ciphertext) : Prop where
  ordered : ∀ entries, host.config = .options entries → UuidFirst entries
  points : Points primitives host
  phase : PhaseSound primitives indented host

end Invariant

variable {host : Bootstrap Ciphertext}

theorem points_of_unrecorded (unrecorded : Unrecorded host.config) : Points primitives host := by
  intro entries uuid treshold shares found _ metadata
  rw [unrecorded entries found] at metadata
  cases metadata

theorem unrecorded_options {entries : Options} (blank : key1Metadata entries = none) :
    Unrecorded (.options entries) := by
  intro others same
  cases same
  exact blank

theorem loaded_blank {config : Options} {file : ConfigFile} (loaded : loadOrDefaultConfig file = some config)
    (unrecorded : Unrecorded file) : key1Metadata config = none := by
  cases file with
  | absent =>
    cases loaded
    exact key1Metadata_defaults []
  | unreadable => cases loaded
  | options entries =>
    cases loaded
    rw [key1Metadata_defaults]
    exact unrecorded entries rfl

theorem loaded_ordered {config : Options} {file : ConfigFile} (loaded : loadOrDefaultConfig file = some config)
    (ordered : ∀ entries, file = .options entries → UuidFirst entries) : UuidFirst config := by
  cases file with
  | absent =>
    cases loaded
    exact UuidFirst.defaults trivial
  | unreadable => cases loaded
  | options entries =>
    cases loaded
    exact (ordered entries rfl).defaults

/-- A record that is complete on disk, of the options with this uuid, points at this KEY1. -/
theorem points_of_record {key1 uuid : String} (uuids : ∀ entries found treshold shares, host.config = .options entries →
      key1Metadata entries = some (found, treshold, shares) → found = uuid)
    (dealt : Dict.get host.dealt uuid = some key1) (saved : SavedFiles primitives key1 host.directory) :
    Points primitives host := by
  intro entries found treshold shares file _ metadata
  rw [uuids entries found treshold shares file metadata]
  exact ⟨key1, dealt, saved.underKey⟩

/-- Steps that leave everything but the phase. -/
theorem BootstrapSound.of_phase (sound : BootstrapSound primitives indented host) {phase : Phase Ciphertext}
    (next : PhaseSound primitives indented { host with phase := phase }) :
    BootstrapSound primitives indented { host with phase := phase } :=
  ⟨sound.ordered, sound.points, next⟩

/-- Writes to `config.ini` before the publication. -/
theorem Unpublished.write {run : KeyRun} {config : Options} (unpublished : Unpublished primitives run config host)
    {file : ConfigFile} {phase : Phase Ciphertext} (blank : Unrecorded file)
    (ordered : ∀ entries, file = .options entries → UuidFirst entries)
    (next : Unpublished primitives run config { host with config := file, phase := phase } →
      PhaseSound primitives indented { host with config := file, phase := phase }) :
    BootstrapSound primitives indented { host with config := file, phase := phase } :=
  ⟨ordered, points_of_unrecorded blank,
    next ⟨unpublished.ordered, unpublished.blank, blank, unpublished.saved⟩⟩

theorem BootstrapSound.begin (sound : BootstrapSound primitives indented host) (run : KeyRun) :
    BootstrapSound primitives indented (setupStep primitives indented host (.begin run)).2 := by
  obtain ⟨directory, config, dealt, phase⟩ := host
  cases phase with
  | idle => exact sound.of_phase fun name member => mem_existingDataFiles member
  | _ => exact sound

theorem BootstrapSound.tear (sound : BootstrapSound primitives indented host) (tear : Tear) :
    BootstrapSound primitives indented (setupStep primitives indented host (.tear tear)).2 := by
  obtain ⟨directory, file, dealt, phase⟩ := host
  cases phase with
  | initiating run ownName config opened =>
    cases opened with
    | false => exact sound
    | true =>
      have unpublished : Unpublished primitives run config _ := sound.phase
      exact unpublished.write (fun entries same => key1Metadata_beginning same unpublished.blank)
        (fun entries same => unpublished.ordered.beginning same) id
  | recording run config opened =>
    cases opened with
    | false => exact sound
    | true =>
      obtain ⟨ordered, uuid, found, saved⟩ := sound.phase
      refine ⟨fun entries same => ordered.beginning same, ?_, ordered, uuid, found, saved⟩
      refine points_of_record ?_ found saved
      intro entries other treshold shares same metadata
      -- a record that can be read has its uuid in full
      have whole := uuid_beginning ordered same metadata
      exact Option.some.inj (whole.symm.trans uuid)
  | _ => exact sound

theorem BootstrapSound.proceed (sound : BootstrapSound primitives indented host)
    (spared : ∀ run ownName config change left, host.phase = .saving run ownName config (change :: left) →
      Unrecorded host.config) : BootstrapSound primitives indented (proceed primitives indented host) := by
  obtain ⟨directory, file, dealt, phase⟩ := host
  cases phase with
  | idle => exact sound
  | archiving run left =>
    cases left with
    | cons name left =>
      refine ⟨sound.ordered, ?_, fun other member => sound.phase other (List.mem_cons_of_mem _ member)⟩
      intro entries uuid treshold shares found initiated metadata
      obtain ⟨key1, there, under⟩ := sound.points entries uuid treshold shares found initiated metadata
      exact ⟨key1, there, under.archive (sound.phase name List.mem_cons_self) _⟩
    | nil =>
      simp only [Setup.proceed]
      split
      · rename_i config ownName loaded matched
        exact sound.of_phase ⟨loaded, [], directory, rfl, rfl, fun some => absurd rfl some⟩
      · exact sound.of_phase trivial
  | saving run ownName config left =>
    obtain ⟨loaded, written, start, shape, reached, unrecorded⟩ := sound.phase
    cases left with
    | cons change left =>
      have blank := spared run ownName config change left rfl
      refine ⟨sound.ordered, points_of_unrecorded blank, loaded, written ++ [change], start, ?_, ?_, fun _ => blank⟩
      · rw [shape, List.append_assoc]
        rfl
      · show change directory = perform (written ++ [change]) start
        rw [show directory = perform written start from reached, perform, perform, List.foldl_append]
        rfl
    | nil =>
      rw [List.append_nil] at shape
      have some : written ≠ [] := by
        rintro rfl
        cases shape
      have blank := unrecorded some
      refine sound.of_phase ⟨?_, ?_, blank, ?_⟩
      · exact (loaded_ordered loaded sound.ordered).set _ fun same => absurd same (by decide)
      · rw [setInitiated, key1Metadata_set _ (by decide)]
        exact loaded_blank loaded blank
      · show SavedFiles primitives run.setup.key1 directory
        rw [show directory = perform written start from reached, ← shape]
        exact savedFiles_perform run.setup ownName start
  | initiating run ownName config opened =>
    have unpublished : Unpublished primitives run config _ := sound.phase
    cases opened with
    | false => exact unpublished.write (unrecorded_options rfl) (fun entries same => by cases same; trivial) id
    | true =>
      exact unpublished.write (unrecorded_options unpublished.blank)
        (fun entries same => by cases same; exact unpublished.ordered) id
  | starting run ownName config =>
    have unpublished : Unpublished primitives run config _ := sound.phase
    have saved : SavedFiles primitives run.setup.startup.key1 directory := unpublished.saved
    have booted := @SavedFiles.boot _ primitives indented _ _ saved
    simp only [Setup.proceed]
    split
    · rename_i outcome after booting
      rw [booting] at booted
      exact ⟨sound.ordered, points_of_unrecorded unpublished.unrecorded, unpublished.ordered, unpublished.blank,
        unpublished.unrecorded, booted⟩
    · exact ⟨sound.ordered, points_of_unrecorded unpublished.unrecorded, trivial⟩
  | polling run ownName config =>
    have unpublished : Unpublished primitives run config _ := sound.phase
    exact ⟨sound.ordered, points_of_unrecorded unpublished.unrecorded,
      ⟨unpublished.ordered, unpublished.blank, unpublished.unrecorded, unpublished.saved⟩, Dict.get_set_self _ _ _⟩
  | publishing run ownName config left =>
    obtain ⟨unpublished, found⟩ := sound.phase
    cases left with
    | cons peer left =>
      exact sound.of_phase
        ⟨⟨unpublished.ordered, unpublished.blank, unpublished.unrecorded, unpublished.saved⟩, found⟩
    | nil =>
      exact sound.of_phase ⟨unpublished.ordered.setKey1Metadata _ _ _, get_setKey1Metadata _ _ _ _, found,
        unpublished.saved⟩
  | recording run config opened =>
    obtain ⟨ordered, uuid, found, saved⟩ := sound.phase
    cases opened with
    | false =>
      exact ⟨fun entries same => by cases same; trivial, points_of_unrecorded (unrecorded_options rfl), ordered, uuid,
        found, saved⟩
    | true =>
      refine ⟨fun entries same => by cases same; exact ordered, ?_, trivial⟩
      refine points_of_record ?_ found saved
      intro entries other treshold shares same metadata
      cases same
      exact Option.some.inj ((key1Metadata_eq_some.mp metadata).1.symm.trans uuid)
  | handoff => exact sound.of_phase trivial

/-- The step lemma. -/
theorem BootstrapSound.step (sound : BootstrapSound primitives indented host) (event : SetupEvent)
    (spared : event = .proceed → ∀ run ownName config change left,
      host.phase = .saving run ownName config (change :: left) → Unrecorded host.config) :
    BootstrapSound primitives indented (setupStep primitives indented host event).2 := by
  cases event with
  | begin run => exact sound.begin run
  | proceed => exact sound.proceed (spared rfl)
  | tear tear => exact sound.tear tear
  | quit => exact sound.of_phase trivial

end Machine

/-! ## Runs -/

/-- Over any number of runs of setup that end anywhere, from a host on which no KEY1 has been
recorded: as long as no data file is written while `config.ini` carries the record of a KEY1,
`config.ini` points at the KEY1 of the data files in every state. -/
theorem config_points {Ciphertext : Type} (primitives : Primitives Ciphertext) (indented : Json → File Ciphertext)
    (host : Bootstrap Ciphertext) (idle : host.phase = .idle)
    (unpublished : ∀ entries, host.config = .options entries → Dict.get entries "key1-shares" = none)
    (events : List SetupEvent)
    (spared : ∀ transition ∈ transitions (setupStep primitives indented) host events,
      WritesData transition → Unrecorded transition.before.config) :
    (∀ transition ∈ transitions (setupStep primitives indented) host events, Points primitives transition.after) ∧
      Points primitives (run (setupStep primitives indented) host events) := by
  have unrecorded : Unrecorded host.config := by
    intro entries found
    cases metadata : key1Metadata entries with
    | none => rfl
    | some record =>
      obtain ⟨uuid, treshold, shares⟩ := record
      have there := (key1Metadata_eq_some.mp metadata).2.2
      rw [unpublished entries found] at there
      cases there
  -- a file without the last field has no record yet
  have start : BootstrapSound primitives indented host := by
    refine ⟨fun entries found => uuidFirst_of_none (unpublished entries found), points_of_unrecorded unrecorded, ?_⟩
    rw [PhaseSound, idle]
    trivial
  have sound := @invariant_of_steps _ _ _ (setupStep primitives indented) (BootstrapSound primitives indented)
    (fun transition => WritesData transition → Unrecorded transition.before.config) host events
    (by
      rintro ⟨before, event, output, after⟩ allowed sound stepped
      have kept := sound.step event fun proceeds run ownName config change left saving =>
        allowed ⟨proceeds, run, ownName, config, change, left, saving⟩
      rwa [stepped] at kept)
    start spared
  exact ⟨fun transition member => (sound.1 transition member).2.points, sound.2.points⟩

/-! ## A run and another one -/

def blankBootstrap : Bootstrap (Data.Bytes × Data.Bytes × Json × Data.Bytes) := ⟨[], .absent, [], .idle⟩

/-- From the first change to the last. -/
def completeRun : List SetupEvent := .begin ⟨sampleSetup "k1", "u1"⟩ :: List.replicate 18 .proceed

/-- The second run as far as it gets: its server cannot open the `shares.dta` of the first. -/
def failedRun : List SetupEvent := .begin ⟨sampleSetup "k2", "u2"⟩ :: List.replicate 15 .proceed

def publishedOptions : Options :=
  [("server-port", "59222"), ("bind-address", "0.0.0.0"), ("cert-file", "cert.pem"), ("key-file", "private.pem"),
    ("ca-file", "ca.crt"), ("initiated", "True"), ("key1-name", "key1"), ("key1-uuid", "u1"), ("key1-treshold", "2"),
    ("key1-shares", "3")]

/-- The first run leaves a record, and it is the right one. -/
theorem config_points_published :
    (run (setupStep samplePrimitives sampleIndented) blankBootstrap completeRun).config = .options publishedOptions ∧
      Points samplePrimitives (run (setupStep samplePrimitives sampleIndented) blankBootstrap completeRun) := by
  refine ⟨by decide +kernel, (config_points samplePrimitives sampleIndented blankBootstrap rfl
    (fun entries found => by cases found) completeRun ?_).2⟩
  have absent : (transitions (setupStep samplePrimitives sampleIndented) blankBootstrap completeRun).all
      (fun transition => match transition.before.phase with
      | .saving .. => transition.before.config = .absent
      | _ => true) = true := by
    decide +kernel
  intro transition member writes
  obtain ⟨_, keyRun, ownName, config, change, left, saving⟩ := writes
  have there := List.all_eq_true.mp absent transition member
  rw [saving] at there
  intro entries found
  rw [of_decide_eq_true there] at found
  cases found

/-- After the second run `config.ini` still points at the first KEY1, and the data files are
under the second. -/
theorem rerun_points_astray :
    ¬Points samplePrimitives
      (run (setupStep samplePrimitives sampleIndented) blankBootstrap (completeRun ++ failedRun)) := by
  intro points
  have config : (run (setupStep samplePrimitives sampleIndented) blankBootstrap (completeRun ++ failedRun)).config =
      .options publishedOptions := by
    decide +kernel
  have dealt : Dict.get (run (setupStep samplePrimitives sampleIndented) blankBootstrap
      (completeRun ++ failedRun)).dealt "u1" = some "k1" := by
    decide +kernel
  have closed : (Dict.get (run (setupStep samplePrimitives sampleIndented) blankBootstrap
      (completeRun ++ failedRun)).directory HOSTS_FILENAME).map (fun blob =>
        (decrypt samplePrimitives "k1" HOSTS_FILE_PURPOSE blob).isOk) = some false := by
    decide +kernel
  obtain ⟨key1, found, under⟩ := points publishedOptions "u1" "2" "3" config (by decide +kernel) rfl
  obtain rfl := Option.some.inj (dealt.symm.trans found)
  obtain ⟨blob, there, fails⟩ := Option.map_eq_some_iff.mp closed
  obtain ⟨data, opened⟩ := under.opens (HOSTS_FILENAME, HOSTS_FILE_PURPOSE) (by simp [dataFiles]) blob there
  rw [opened] at fails
  cases fails

end SecretWeb.Setup
