import SecretWeb.Setup.Reruns

/-! # A boot that fails

The four data files are opened one after another, and each that is not there is created on
the way.  A boot that fails has therefore written every missing file it came past, under
the KEY1 it was handed, right or wrong. -/

namespace SecretWeb.Server

open SecretWeb.Python SecretWeb.CryptoFile

/-- One of the `ensure_*` steps of `main`: the file it opens, its plaintext mirror if it has
one, and what it creates the file from. -/
structure Stage where
  path : String
  purpose : String
  mirror : Option String
  default : Startup → Json

def hostsStage : Stage := ⟨HOSTS_FILENAME, HOSTS_FILE_PURPOSE, some HOSTS_PLAINTEXT_FILENAME, defaultHostsData⟩

def sitesStage : Stage := ⟨SITES_FILENAME, SITES_FILE_PURPOSE, some SITES_PLAINTEXT_FILENAME, fun _ => defaultSitesData⟩

def secretsStage : Stage := ⟨SECRETS_FILENAME, SECRETS_FILE_PURPOSE, none, fun _ => defaultSecretsData⟩

def sharesStage : Stage := ⟨SHARES_FILENAME, SHARES_FILE_PURPOSE, none, fun _ => defaultSharesData⟩

def stages : List Stage := [hostsStage, sitesStage, secretsStage, sharesStage]

section Stages

variable {Ciphertext : Type} (primitives : Primitives Ciphertext) (indented : Json → File Ciphertext)
  (startup : Startup)

def Stage.ensure (directory : Directory Ciphertext) (stage : Stage) :
    Except PyException Json × Directory Ciphertext :=
  match stage.mirror with
  | some plaintextPath =>
    ensureMirrored primitives startup.writable indented directory stage.path plaintextPath startup.key1
      stage.purpose (startup.nonce stage.path) (stage.default startup)
  | none =>
    CryptoFile.ensure primitives startup.writable directory stage.path startup.key1 stage.purpose
      (startup.nonce stage.path) (stage.default startup)

/-- The stages in turn, up to the first that raises. -/
def ensureAll : Directory Ciphertext → List Stage → Except PyException Unit × Directory Ciphertext
  | directory, [] => (.ok (), directory)
  | directory, stage :: rest =>
    match stage.ensure primitives indented startup directory with
    | (.error exception, after) => (.error exception, after)
    | (.ok _, after) => ensureAll after rest

/-- The stage finds a file it cannot open, or none and cannot create one. -/
def Stage.Fails (directory : Directory Ciphertext) (stage : Stage) : Prop :=
  (∃ blob exception, Dict.get directory stage.path = some blob ∧
    decrypt primitives startup.key1 stage.purpose blob = .error exception) ∨
  Dict.get directory stage.path = none ∧
    (startup.writable stage.path = false ∨ ∃ mirror, stage.mirror = some mirror ∧ startup.writable mirror = false)

/-- The stage finds no file and can create one. -/
def Stage.Creates (directory : Directory Ciphertext) (stage : Stage) : Prop :=
  Dict.get directory stage.path = none ∧ startup.writable stage.path = true

/-- The first stage to fail creates nothing, nor does any stage before it. -/
def FailsFirst (directory : Directory Ciphertext) (items : List Stage) : Prop :=
  ∀ earlier failing later, items = earlier ++ failing :: later →
    (∀ stage ∈ earlier, ¬stage.Fails primitives startup directory) → failing.Fails primitives startup directory →
    ∀ stage ∈ earlier ++ [failing], ¬stage.Creates startup directory

/-- The other stage's file is not one of those this stage writes. -/
def Apart (stage other : Stage) : Prop := other.path ≠ stage.path ∧ stage.mirror ≠ some other.path

variable {primitives indented startup} {directory : Directory Ciphertext}

theorem stages_apart : stages.Pairwise Apart := by
  simp [stages, Apart, hostsStage, sitesStage, secretsStage, sharesStage, HOSTS_FILENAME, SITES_FILENAME,
    SECRETS_FILENAME, SHARES_FILENAME, HOSTS_PLAINTEXT_FILENAME, SITES_PLAINTEXT_FILENAME]

/-! ## One stage -/

theorem Stage.ensure_present {stage : Stage} {blob : File Ciphertext}
    (found : Dict.get directory stage.path = some blob) :
    stage.ensure primitives indented startup directory =
      (decrypt primitives startup.key1 stage.purpose blob, directory) := by
  rw [Stage.ensure]
  cases stage.mirror with
  | none => exact Server.ensure_present _ _ found
  | some mirror => exact ensureMirrored_present _ _ found

theorem Stage.ensure_unwritable {stage : Stage} (absent : Dict.get directory stage.path = none)
    (refused : startup.writable stage.path = false) :
    stage.ensure primitives indented startup directory = (.error .osError, directory) := by
  rw [Stage.ensure]
  cases stage.mirror with
  | none => simp [CryptoFile.ensure, absent, save, atomicWriteBytes, refused]
  | some mirror => simp [ensureMirrored, absent, saveMirrored, save, atomicWriteBytes, refused]

/-- The files a stage that creates its file leaves behind. -/
theorem Stage.ensure_creates {stage : Stage} (creates : stage.Creates startup directory) :
    (stage.ensure primitives indented startup directory).2 =
      match stage.mirror with
      | none => Dict.set directory stage.path
          (encrypt primitives startup.key1 stage.purpose (startup.nonce stage.path) (stage.default startup))
      | some mirror =>
        (atomicWriteBytes startup.writable (Dict.set directory stage.path
          (encrypt primitives startup.key1 stage.purpose (startup.nonce stage.path) (stage.default startup)))
          mirror (indented (stage.default startup))).2 := by
  obtain ⟨absent, written⟩ := creates
  rw [Stage.ensure]
  cases stage.mirror with
  | none => rw [ensure_absent _ _ absent written]
  | some mirror =>
    simp only [ensureMirrored, absent, saveMirrored, save, atomicWriteBytes, written, ↓reduceIte]
    by_cases mirrored : startup.writable mirror
    · simp only [mirrored, ↓reduceIte]
    · simp only [mirrored, Bool.false_eq_true, ↓reduceIte]

variable (indented) in
theorem Stage.ensure_error_iff (stage : Stage) :
    (∃ exception, (stage.ensure primitives indented startup directory).1 = .error exception) ↔
      stage.Fails primitives startup directory := by
  cases found : Dict.get directory stage.path with
  | some blob =>
    rw [stage.ensure_present found]
    simp [Stage.Fails, found]
  | none =>
    cases written : startup.writable stage.path with
    | false =>
      rw [stage.ensure_unwritable found written]
      simp [Stage.Fails, found, written]
    | true =>
      rw [Stage.ensure]
      cases mirrored : stage.mirror with
      | none =>
        rw [ensure_absent _ _ found written]
        simp [Stage.Fails, found, written, mirrored]
      | some mirror =>
        -- the encrypted file is there by now, the mirror decides
        simp only [ensureMirrored, found, saveMirrored, save, atomicWriteBytes, written, ↓reduceIte]
        by_cases copied : startup.writable mirror
        · simp [Stage.Fails, found, written, mirrored, copied]
        · simp [Stage.Fails, found, written, mirrored, copied]

theorem Stage.ensure_keeps {stage : Stage} (creates : ¬stage.Creates startup directory) :
    (stage.ensure primitives indented startup directory).2 = directory := by
  cases found : Dict.get directory stage.path with
  | some blob => rw [stage.ensure_present found]
  | none =>
    have refused : startup.writable stage.path = false := by
      cases written : startup.writable stage.path with
      | false => rfl
      | true => exact absurd ⟨found, written⟩ creates
    rw [stage.ensure_unwritable found refused]

theorem get_atomicWriteBytes_isSome {writable : String → Bool} {path : String} (written : String)
    (data : File Ciphertext) (there : (Dict.get directory path).isSome) :
    (Dict.get (atomicWriteBytes writable directory written data).2 path).isSome := by
  rw [atomicWriteBytes]
  split
  · rw [Dict.get_set]
    split
    · rfl
    · exact there
  · exact there

variable (primitives indented) in
theorem Stage.ensure_created {stage : Stage} (creates : stage.Creates startup directory) :
    (Dict.get (stage.ensure primitives indented startup directory).2 stage.path).isSome := by
  rw [Stage.ensure_creates creates]
  cases stage.mirror with
  | none => simp
  | some mirror =>
    apply get_atomicWriteBytes_isSome
    simp

variable (primitives indented startup) in
/-- No stage removes a file. -/
theorem Stage.ensure_grows (stage : Stage) {path : String} (there : (Dict.get directory path).isSome) :
    (Dict.get (stage.ensure primitives indented startup directory).2 path).isSome := by
  by_cases creates : stage.Creates startup directory
  · have sealedFile : (Dict.get (Dict.set directory stage.path (encrypt primitives startup.key1 stage.purpose
        (startup.nonce stage.path) (stage.default startup))) path).isSome := by
      rw [Dict.get_set]
      split
      · rfl
      · exact there
    rw [Stage.ensure_creates creates]
    cases stage.mirror with
    | none => exact sealedFile
    | some mirror => exact get_atomicWriteBytes_isSome _ _ sealedFile
  · rwa [Stage.ensure_keeps creates]

variable (primitives indented startup directory) in
/-- A stage leaves the file of a stage apart from it as it was. -/
theorem Stage.ensure_apart {stage other : Stage} (apart : Apart stage other) :
    Dict.get (stage.ensure primitives indented startup directory).2 other.path = Dict.get directory other.path := by
  by_cases creates : stage.Creates startup directory
  · rw [Stage.ensure_creates creates]
    cases mirrored : stage.mirror with
    | none => exact Dict.get_set_ne _ _ apart.1
    | some mirror =>
      have different : other.path ≠ mirror := fun same => apart.2 (by rw [mirrored, same])
      dsimp only
      rw [atomicWriteBytes]
      split
      · rw [Dict.get_set_ne _ _ different, Dict.get_set_ne _ _ apart.1]
      · exact Dict.get_set_ne _ _ apart.1
  · rw [Stage.ensure_keeps creates]

/-! ## All stages in turn

Whether a stage fails, and whether it creates its file, can be told from the directory the
boot started with: no stage touches the file of a later one. -/

theorem Stage.fails_congr {after : Directory Ciphertext} {stage : Stage}
    (same : Dict.get after stage.path = Dict.get directory stage.path) :
    stage.Fails primitives startup after ↔ stage.Fails primitives startup directory := by
  rw [Stage.Fails, Stage.Fails, same]

theorem Stage.creates_congr {after : Directory Ciphertext} {stage : Stage}
    (same : Dict.get after stage.path = Dict.get directory stage.path) :
    stage.Creates startup after ↔ stage.Creates startup directory := by
  rw [Stage.Creates, Stage.Creates, same]

variable (indented) in
theorem ensureAll_cons_error {stage : Stage} (rest : List Stage)
    (fails : stage.Fails primitives startup directory) :
    ∃ exception, ensureAll primitives indented startup directory (stage :: rest) =
      (.error exception, (stage.ensure primitives indented startup directory).2) := by
  obtain ⟨exception, raised⟩ := (stage.ensure_error_iff indented).mpr fails
  exact ⟨exception, by rw [ensureAll, ← Prod.eta (stage.ensure primitives indented startup directory), raised]⟩

theorem ensureAll_cons_ok {stage : Stage} {rest : List Stage}
    (opens : ¬stage.Fails primitives startup directory) :
    ensureAll primitives indented startup directory (stage :: rest) =
      ensureAll primitives indented startup (stage.ensure primitives indented startup directory).2 rest := by
  cases outcome : (stage.ensure primitives indented startup directory).1 with
  | error exception => exact absurd ((stage.ensure_error_iff indented).mp ⟨exception, outcome⟩) opens
  | ok document => rw [ensureAll, ← Prod.eta (stage.ensure primitives indented startup directory), outcome]

variable (primitives indented startup) in
theorem ensureAll_grows (items : List Stage) {path : String} (there : (Dict.get directory path).isSome) :
    (Dict.get (ensureAll primitives indented startup directory items).2 path).isSome := by
  induction items generalizing directory with
  | nil => exact there
  | cons stage rest inductionHypothesis =>
    have grown := stage.ensure_grows primitives indented startup there
    by_cases fails : stage.Fails primitives startup directory
    · obtain ⟨exception, raised⟩ := ensureAll_cons_error indented rest fails
      rwa [raised]
    · rw [ensureAll_cons_ok fails]
      exact inductionHypothesis grown

theorem ensureAll_fails {items : List Stage} (apart : items.Pairwise Apart) {exception : PyException}
    (raised : (ensureAll primitives indented startup directory items).1 = .error exception) :
    ∃ stage ∈ items, stage.Fails primitives startup directory := by
  induction items generalizing directory with
  | nil => cases raised
  | cons stage rest inductionHypothesis =>
    obtain ⟨stageApart, restApart⟩ := List.pairwise_cons.mp apart
    by_cases fails : stage.Fails primitives startup directory
    · exact ⟨stage, List.mem_cons_self, fails⟩
    · rw [ensureAll_cons_ok fails] at raised
      obtain ⟨other, member, otherFails⟩ := inductionHypothesis restApart raised
      have same := Stage.ensure_apart primitives indented startup directory (stageApart other member)
      exact ⟨other, List.mem_cons_of_mem _ member, (Stage.fails_congr same).mp otherFails⟩

variable (indented) in
/-- What a boot leaves behind is decided by the stages up to the first that fails. -/
theorem ensureAll_at_first {earlier later : List Stage} {failing : Stage}
    (apart : (earlier ++ failing :: later).Pairwise Apart)
    (opens : ∀ stage ∈ earlier, ¬stage.Fails primitives startup directory)
    (fails : failing.Fails primitives startup directory) :
    ∃ exception after,
      ensureAll primitives indented startup directory (earlier ++ failing :: later) = (.error exception, after) ∧
      (∀ stage ∈ earlier ++ [failing], stage.Creates startup directory → (Dict.get after stage.path).isSome) ∧
      ((∀ stage ∈ earlier ++ [failing], ¬stage.Creates startup directory) → after = directory) := by
  induction earlier generalizing directory with
  | nil =>
    obtain ⟨exception, raised⟩ := ensureAll_cons_error indented later fails
    refine ⟨exception, _, raised, ?_, ?_⟩
    · intro stage member creates
      obtain rfl := List.mem_singleton.mp member
      exact Stage.ensure_created primitives indented creates
    · intro nothing
      exact Stage.ensure_keeps (nothing failing List.mem_cons_self)
  | cons first rest inductionHypothesis =>
    obtain ⟨firstApart, restApart⟩ := List.pairwise_cons.mp apart
    obtain ⟨firstOpens, restOpens⟩ := List.forall_mem_cons.mp opens
    -- the other stages find their files as they were before the first one
    have same : ∀ stage ∈ rest ++ [failing],
        Dict.get (first.ensure primitives indented startup directory).2 stage.path = Dict.get directory stage.path := by
      intro stage member
      apply Stage.ensure_apart
      apply firstApart
      rcases List.mem_append.mp member with inRest | isFailing
      · exact List.mem_append_left _ inRest
      · rw [List.mem_singleton.mp isFailing]
        exact List.mem_append_right _ List.mem_cons_self
    obtain ⟨exception, after, raised, created, kept⟩ :=
      @inductionHypothesis (first.ensure primitives indented startup directory).2 restApart
        (fun stage member => by
          rw [Stage.fails_congr (same stage (List.mem_append_left _ member))]
          exact restOpens stage member)
        ((Stage.fails_congr (same failing (List.mem_append_right _ List.mem_cons_self))).mpr fails)
    rw [List.cons_append, ensureAll_cons_ok firstOpens]
    refine ⟨exception, after, raised, ?_, ?_⟩
    · intro stage member creates
      rcases List.mem_cons.mp member with rfl | inRest
      · have grown := ensureAll_grows primitives indented startup (rest ++ failing :: later)
          (Stage.ensure_created primitives indented creates)
        rwa [raised] at grown
      · exact created stage inRest ((Stage.creates_congr (same stage inRest)).mpr creates)
    · intro nothing
      obtain ⟨firstNothing, restNothing⟩ := List.forall_mem_cons.mp nothing
      rw [Stage.ensure_keeps firstNothing] at kept same
      exact kept restNothing

theorem exists_first_failing {items : List Stage} (fails : ∃ stage ∈ items, stage.Fails primitives startup directory) :
    ∃ earlier failing later, items = earlier ++ failing :: later ∧
      (∀ stage ∈ earlier, ¬stage.Fails primitives startup directory) ∧
      failing.Fails primitives startup directory := by
  classical
  have some : (items.find? fun stage => decide (stage.Fails primitives startup directory)).isSome := by
    simpa using fails
  obtain ⟨failing, found⟩ := Option.isSome_iff_exists.mp some
  obtain ⟨failingFails, earlier, later, shape, opens⟩ := List.find?_eq_some_iff_append.mp found
  exact ⟨earlier, failing, later, shape, by simpa using opens, by simpa using failingFails⟩

variable (indented) in
/-- A failing run of the stages leaves every file as it was exactly when the condition holds. -/
theorem ensureAll_unchanged_iff {items : List Stage} (apart : items.Pairwise Apart) :
    (∀ exception, (ensureAll primitives indented startup directory items).1 = .error exception →
        (ensureAll primitives indented startup directory items).2 = directory) ↔
      FailsFirst primitives startup directory items := by
  constructor
  · rintro unchanged earlier failing later rfl opens fails stage member creates
    obtain ⟨exception, after, raised, created, _⟩ := ensureAll_at_first indented apart opens fails
    have same := unchanged exception (by rw [raised])
    rw [raised] at same
    have there := created stage member creates
    rw [show after = directory from same, creates.1] at there
    cases there
  · intro condition exception raised
    obtain ⟨earlier, failing, later, rfl, opens, fails⟩ := exists_first_failing (ensureAll_fails apart raised)
    obtain ⟨other, after, outcome, _, kept⟩ := ensureAll_at_first indented apart opens fails
    rw [outcome]
    exact kept (condition earlier failing later rfl opens fails)

/-! ## The boot -/

variable (primitives indented startup directory) in
/-- The stages are the boot, apart from what becomes of the documents. -/
theorem boot_ensureAll :
    ((∃ report, (boot primitives indented startup directory).1 = .error report) ↔
      ∃ exception, (ensureAll primitives indented startup directory stages).1 = .error exception) ∧
    (boot primitives indented startup directory).2 = (ensureAll primitives indented startup directory stages).2 := by
  have hosts : hostsStage.ensure primitives indented startup directory =
      ensureHostsFile primitives indented startup directory := rfl
  have sites : ∀ directory, sitesStage.ensure primitives indented startup directory =
      ensureSitesFile primitives indented startup directory := fun _ => rfl
  have secrets : ∀ directory, secretsStage.ensure primitives indented startup directory =
      ensureSecretsFile primitives startup directory := fun _ => rfl
  have shares : ∀ directory, sharesStage.ensure primitives indented startup directory =
      ensureSharesFile primitives startup directory := fun _ => rfl
  simp only [boot, stages, ensureAll, hosts, sites, secrets, shares, startupGuard]
  rcases ensureHostsFile primitives indented startup directory with ⟨_ | hostsData, directory⟩
  · simp
  dsimp only
  rcases ensureSitesFile primitives indented startup directory with ⟨_ | sitesData, directory⟩
  · simp
  dsimp only
  rcases ensureSecretsFile primitives startup directory with ⟨_ | secretsData, directory⟩
  · simp
  dsimp only
  rcases ensureSharesFile primitives startup directory with ⟨_ | sharesData, directory⟩
  · simp
  · simp

end Stages

/-- If the boot fails then the files are as before, and who could boot before still can. -/
def LeavesAlone {Ciphertext : Type} (primitives : Primitives Ciphertext) (indented : Json → File Ciphertext)
    (startup : Startup) (directory : Directory Ciphertext) : Prop :=
  ∀ report, (boot primitives indented startup directory).1 = .error report →
    (boot primitives indented startup directory).2 = directory ∧
    ∀ later config, (boot primitives indented later directory).1 = .ok config →
      (boot primitives indented later (boot primitives indented startup directory).2).1 = .ok config

/-- A failed boot leaves the data directory as it was exactly when neither the first stage
that fails nor any stage before it finds its file missing and can create it. -/
theorem failed_boot_leaves_alone_iff {Ciphertext : Type} (primitives : Primitives Ciphertext)
    (indented : Json → File Ciphertext) (startup : Startup) (directory : Directory Ciphertext) :
    LeavesAlone primitives indented startup directory ↔ FailsFirst primitives startup directory stages := by
  obtain ⟨failsIff, same⟩ := boot_ensureAll primitives indented startup directory
  rw [← ensureAll_unchanged_iff indented stages_apart]
  constructor
  · intro leaves exception raised
    obtain ⟨report, reported⟩ := failsIff.mpr ⟨exception, raised⟩
    rw [← same]
    exact (leaves report reported).1
  · intro unchanged report reported
    obtain ⟨exception, raised⟩ := failsIff.mp ⟨report, reported⟩
    have kept : (boot primitives indented startup directory).2 = directory := by
      rw [same]
      exact unchanged exception raised
    refine ⟨kept, fun later config booted => ?_⟩
    rw [kept]
    exact booted

/-! ## A wrong KEY1 -/

def sampleStartup (key1 : String) : Startup :=
  ⟨key1, "host1", 59222, "2026-01-01T00:00:00+00:00", fun _ => Setup.sampleNonce, fun _ => true⟩

/-- `sites.dta` is there and `hosts.dta` is not. -/
def sitesOnly : Directory (Data.Bytes × Data.Bytes × Json × Data.Bytes) :=
  [(SITES_FILENAME, encrypt Setup.samplePrimitives "k1" SITES_FILE_PURPOSE Setup.sampleNonce defaultSitesData)]

/-- A host boots; one boot under another KEY1, which fails, and it does not boot any more. -/
theorem wrong_key_lingers :
    let booted := fun key1 directory => boot Setup.samplePrimitives Setup.sampleIndented (sampleStartup key1) directory
    (booted "k1" sitesOnly).1.isOk ∧ ¬(booted "k2" sitesOnly).1.isOk ∧
      ¬(booted "k1" (booted "k2" sitesOnly).2).1.isOk ∧
      ¬LeavesAlone Setup.samplePrimitives Setup.sampleIndented (sampleStartup "k2") sitesOnly := by
  intro booted
  have right : (booted "k1" sitesOnly).1.isOk = true := by decide +kernel
  have wrong : (booted "k2" sitesOnly).1.isOk = false := by decide +kernel
  have after : (booted "k1" (booted "k2" sitesOnly).2).1.isOk = false := by decide +kernel
  refine ⟨right, by simp [wrong], by simp [after], fun leaves => ?_⟩
  cases reported : (booted "k2" sitesOnly).1 with
  | ok config => simp [reported, Except.isOk, Except.toBool] at wrong
  | error report =>
    cases opened : (booted "k1" sitesOnly).1 with
    | error report => simp [opened, Except.isOk, Except.toBool] at right
    | ok config =>
      have kept := (leaves report reported).2 (sampleStartup "k1") config opened
      rw [show (booted "k1" (booted "k2" sitesOnly).2).1 = .ok config from kept] at after
      cases after

end SecretWeb.Server
