import SecretWeb.Server.Boot
import SecretWeb.Server.Settling

/-! # The stages of a boot

`main` of the server opens four files before it waits for requests.  Here the stages of the
hosts and of the sites come before those of the store; left alone, all of them together come to
what they come to when each file is written at once. -/

namespace SecretWeb.Server.Recovery

open SecretWeb.Data SecretWeb.Python SecretWeb.Python.JsonText SecretWeb.Storage SecretWeb.Machine

open SecretWeb.CryptoFile (Nonce)

section Stages

variable (cipher : Cipher) (floats : FloatText) (key1 : String)

/-- `ensure_hosts_file` and `ensure_sites_file` on files that are there; setup writes both of them
before it starts the first server. -/
def openOwnFiles (directory : Directory) : Except PyException Json := do
  let _ ← load cipher floats directory HOSTS_FILENAME key1 HOSTS_FILE_PURPOSE
  load cipher floats directory SITES_FILENAME key1 SITES_FILE_PURPOSE

/-- `main` up to its stages over the store; whatever is raised before them ends it. -/
def boots (host : Host floats) (secretsNonce sharesNonce : Nonce) : Host floats :=
  match openOwnFiles cipher floats key1 host.directory with
  | .ok _ => { host with process := ensureSecrets cipher floats key1 host.directory secretsNonce sharesNonce }
  | .error _ => { host with process := .failed }

variable {cipher floats key1} {lower : String → String} {intOf : String → Option Int} {hosts : Json}

/-- With its own files in order a boot is all about the store. -/
theorem boots_of_opened {host : Host floats} {sites : Json} (down : host.process = .down)
    (opened : openOwnFiles cipher floats key1 host.directory = .ok sites) (secretsNonce sharesNonce : Nonce) :
    boots cipher floats key1 host secretsNonce sharesNonce =
      (step cipher key1 lower intOf hosts host (.start secretsNonce sharesNonce)).2 := by
  rw [boots, opened]
  simp only [step, down]

/-- No other file counts. -/
theorem openOwnFiles_congr {directory other : Directory}
    (same : ∀ name ∈ [HOSTS_FILENAME, SITES_FILENAME], Dict.get directory name = Dict.get other name) :
    openOwnFiles cipher floats key1 directory = openOwnFiles cipher floats key1 other := by
  unfold openOwnFiles load
  rw [same HOSTS_FILENAME (by simp), same SITES_FILENAME (by simp)]

theorem up_boots (host : Host floats) (secretsNonce sharesNonce : Nonce) :
    (boots cipher floats key1 host secretsNonce sharesNonce).process ≠ .down := by
  unfold boots
  split
  · exact up_ensureSecrets _ _ _
  · simp

theorem directory_boots (host : Host floats) (secretsNonce sharesNonce : Nonce) :
    (boots cipher floats key1 host secretsNonce sharesNonce).directory = host.directory := by
  unfold boots
  split
  · rfl
  · rfl

/-- Only the files of the store are written. -/
theorem Tracks.get_step {store : Store} {flight : Option (Post floats)} {host : Host floats}
    (tracks : Tracks cipher key1 lower intOf hosts store flight host) (event : Event floats) {name : String}
    (other : ∀ file : StoreFile, name ≠ file.path) (permanent : ¬Temporary name)
    (kept : ∀ bytes, event ≠ .elsewhere name bytes) :
    Dict.get (Recovery.step cipher key1 lower intOf hosts host event).2.directory name =
      Dict.get host.directory name := by
  obtain ⟨directory, process⟩ := host
  have sound := tracks.sound
  cases event with
  | start secretsNonce sharesNonce =>
    cases process with
    | _ => rfl
  | work writeStep =>
    cases process with
    | creatingSecrets sharesNonce bytes writing =>
      obtain ⟨_, _, _, _, pending⟩ := sound
      exact (Writing.step_stepped StoreFile.secrets.named pending.holds pending.going writeStep).others name permanent
        (other .secrets)
    | creatingShares secrets bytes writing =>
      obtain ⟨_, _, _, _, _, pending⟩ := sound
      exact (Writing.step_stepped StoreFile.shares.named pending.holds pending.going writeStep).others name permanent
        (other .shares)
    | saving memory post file answer bytes writing =>
      obtain ⟨_, _, _, _, pending⟩ := sound
      exact (Writing.step_stepped file.named pending.holds pending.going writeStep).others name permanent (other file)
    | _ => rfl
  | post post nonce =>
    cases process with
    | running memory =>
      simp only [Recovery.step]
      split
      · rfl
      · rfl
    | _ => rfl
  | answer =>
    cases process with
    | _ => rfl
  | kill => rfl
  | elsewhere written bytes =>
    simp only [Recovery.step]
    split
    · rfl
    · refine Dict.get_set_ne _ _ ?_
      rintro rfl
      exact kept bytes rfl

/-! ## Each file written at once -/

section AtOnce

variable {directory : Directory} {files : CryptoFile.Directory Storage.Sealed}

/-- Both envelopes open to one document, or neither of them opens. -/
theorem opened_cases (key1 purpose : String) (blob : Bytes) :
    (∃ data, opened cipher floats key1 purpose blob = .ok data ∧
      CryptoFile.decrypt (primitives cipher floats) key1 purpose (fileOf blob) = .ok data) ∨
    ∃ exception other, opened cipher floats key1 purpose blob = .error exception ∧
      CryptoFile.decrypt (primitives cipher floats) key1 purpose (fileOf blob) = .error other := by
  have same := @opened_eq_ok_iff cipher floats key1 purpose blob
  cases outcome : opened cipher floats key1 purpose blob with
  | ok data => exact .inl ⟨data, rfl, (same data).mp outcome⟩
  | error exception =>
    cases other : CryptoFile.decrypt (primitives cipher floats) key1 purpose (fileOf blob) with
    | ok data => cases outcome.symm.trans ((same data).mpr other)
    | error _ => exact .inr ⟨exception, _, rfl, rfl⟩

/-- A write that is left alone, and what follows on it. -/
theorem reaches_written {path : String} {bytes : Bytes} {going : Writing → Process floats}
    {done : Directory → Process floats} (directory : Directory)
    (works : ∀ directory writing writeStep, (step cipher key1 lower intOf hosts ⟨directory, going writing⟩
      (.work writeStep)).2 = ⟨(writing.step path bytes directory writeStep).2,
        after (done (writing.step path bytes directory writeStep).2) going
          (writing.step path bytes directory writeStep).1⟩) :
    ∃ left, Reaches (step cipher key1 lower intOf hosts) Event.Work ⟨directory, going .starting⟩ ⟨left, done left⟩ ∧
      ∀ name, Dict.get left name = Dict.get (Dict.set directory path bytes) name := by
  obtain ⟨unique, free⟩ := exists_unique_free directory
  have one : ∀ {before last : Host floats} (writeStep : WriteStep),
      (step cipher key1 lower intOf hosts before (.work writeStep)).2 = last →
      Reaches (step cipher key1 lower intOf hosts) Event.Work before last := by
    rintro before _ writeStep rfl
    exact reaches_step before ⟨writeStep, rfl⟩
  have opened : Reaches (step cipher key1 lower intOf hosts) Event.Work ⟨directory, going .starting⟩
      ⟨Dict.set directory (tmpName unique) [], going (.opened (tmpName unique) 0)⟩ :=
    one (.mkstemp unique) (by rw [works]; simp [Writing.step, free, after])
  have flushed : Reaches (step cipher key1 lower intOf hosts) Event.Work
      ⟨Dict.set directory (tmpName unique) [], going (.opened (tmpName unique) 0)⟩
      ⟨Dict.set (Dict.set directory (tmpName unique) []) (tmpName unique) bytes, going (.flushed (tmpName unique))⟩ :=
    one .flush (by rw [works]; rfl)
  have synced : Reaches (step cipher key1 lower intOf hosts) Event.Work
      ⟨Dict.set (Dict.set directory (tmpName unique) []) (tmpName unique) bytes, going (.flushed (tmpName unique))⟩
      ⟨Dict.set (Dict.set directory (tmpName unique) []) (tmpName unique) bytes, going (.synced (tmpName unique))⟩ :=
    one .fsync (by rw [works]; rfl)
  refine ⟨_, opened.trans (flushed.trans (synced.trans (one .replace (by
    rw [works]; simp only [Writing.step, Dict.get_set_self, after]; rfl)))), fun name => ?_⟩
  rw [Dict.get_set, Dict.get_set, Dict.get_erase, Dict.get_set, Dict.get_set]
  split
  · rfl
  · split
    · rename_i temporary
      rw [temporary, free]
    · rfl

/-- A file that has been written holds the envelope of its document. -/
theorem agrees_written (agrees : Agrees directory files) {left : Directory} {path purpose : String} {nonce : Nonce}
    {data : Json} (writable : Writable floats data)
    (written : ∀ name, Dict.get left name =
      Dict.get (Dict.set directory path (blob cipher floats key1 purpose nonce data)) name) :
    Agrees left (Dict.set files path (CryptoFile.encrypt (primitives cipher floats) key1 purpose nonce data)) := by
  intro name
  rw [written, ← fileOf_blob key1 purpose nonce writable]
  exact agrees.set path _ name

/-- The host has the files, and goes on with the document or has failed. -/
def ComesTo (next : Json → Process floats) (host : Host floats)
    (outcome : Except PyException Json × CryptoFile.Directory Storage.Sealed) : Prop :=
  Agrees host.directory outcome.2 ∧
    match outcome.1 with
    | .ok data => host.process = next data
    | .error _ => host.process = .failed

theorem ensureShares_comesTo (startup : Startup) (agrees : Agrees directory files)
    (writable : ∀ path, startup.writable path = true) (secrets : Json) :
    ∃ last, Reaches (step cipher startup.key1 lower intOf hosts) Event.Work
        ⟨directory, ensureShares cipher floats startup.key1 directory secrets (startup.nonce SHARES_FILENAME)⟩ last ∧
      ComesTo (booted floats secrets) last (ensureSharesFile (primitives cipher floats) startup files) := by
  have there := agrees SHARES_FILENAME
  rw [ensureSharesFile, ensureShares]
  cases found : Dict.get directory SHARES_FILENAME with
  | some blob =>
    rw [found] at there
    rw [Option.isSome_some, if_pos rfl, load, found, ensure_present _ _ there]
    obtain ⟨shares, loaded, other⟩ | ⟨_, _, loaded, other⟩ :=
      @opened_cases cipher floats startup.key1 SHARES_FILE_PURPOSE blob
    · rw [other]
      exact ⟨_, .refl, agrees, by dsimp only; rw [loaded]⟩
    · rw [other]
      exact ⟨_, .refl, agrees, by dsimp only; rw [loaded]⟩
  | none =>
    rw [found] at there
    rw [Option.isSome_none, if_neg Bool.false_ne_true, ensure_absent _ _ there (writable _)]
    obtain ⟨left, reaches, written⟩ := @reaches_written cipher floats startup.key1 lower intOf hosts SHARES_FILENAME
      (blob cipher floats startup.key1 SHARES_FILE_PURPOSE (startup.nonce SHARES_FILENAME) defaultSharesData)
      (.creatingShares secrets _) (fun _ => booted floats secrets defaultSharesData) directory fun _ _ _ => rfl
    exact ⟨_, reaches, agrees_written agrees (writable_empty "shares") written, rfl⟩

theorem ensureSecrets_comesTo (startup : Startup) (agrees : Agrees directory files)
    (writable : ∀ path, startup.writable path = true) :
    ∃ last, Reaches (step cipher startup.key1 lower intOf hosts) Event.Work
        ⟨directory, ensureSecrets cipher floats startup.key1 directory (startup.nonce SECRETS_FILENAME)
          (startup.nonce SHARES_FILENAME)⟩ last ∧
      match ensureSecretsFile (primitives cipher floats) startup files with
      | (.error _, left) => Agrees last.directory left ∧ last.process = .failed
      | (.ok secrets, left) =>
        ComesTo (booted floats secrets) last (ensureSharesFile (primitives cipher floats) startup left) := by
  have there := agrees SECRETS_FILENAME
  rw [ensureSecretsFile, ensureSecrets]
  cases found : Dict.get directory SECRETS_FILENAME with
  | some blob =>
    rw [found] at there
    rw [Option.isSome_some, if_pos rfl, load, found, ensure_present _ _ there]
    obtain ⟨secrets, loaded, other⟩ | ⟨_, _, loaded, other⟩ :=
      @opened_cases cipher floats startup.key1 SECRETS_FILE_PURPOSE blob
    · rw [other]
      dsimp only
      rw [loaded]
      exact ensureShares_comesTo startup agrees writable secrets
    · rw [other]
      exact ⟨_, .refl, agrees, by dsimp only; rw [loaded]⟩
  | none =>
    rw [found] at there
    rw [Option.isSome_none, if_neg Bool.false_ne_true, ensure_absent _ _ there (writable _)]
    obtain ⟨left, created, written⟩ := @reaches_written cipher floats startup.key1 lower intOf hosts SECRETS_FILENAME
      (blob cipher floats startup.key1 SECRETS_FILE_PURPOSE (startup.nonce SECRETS_FILENAME) defaultSecretsData)
      (.creatingSecrets (startup.nonce SHARES_FILENAME) _)
      (fun directory => ensureShares cipher floats startup.key1 directory defaultSecretsData
        (startup.nonce SHARES_FILENAME)) directory fun _ _ _ => rfl
    have agreesAfter := agrees_written agrees (writable_empty "secrets") written
    obtain ⟨last, reaches, comes⟩ := ensureShares_comesTo startup agreesAfter writable defaultSecretsData
    exact ⟨last, created.trans reaches, comes⟩

/-- A boot that is left alone comes to what `main` comes to with its files written at once: to a
server over the documents of its store if the guards let it through, and to its end otherwise. -/
theorem boots_eq_boot (indented : Json → CryptoFile.File Storage.Sealed) (startup : Startup) (agrees : Agrees directory files)
    (writable : ∀ path, startup.writable path = true) {hostsBlob sitesBlob : Bytes}
    (hostsThere : Dict.get directory HOSTS_FILENAME = some hostsBlob)
    (sitesThere : Dict.get directory SITES_FILENAME = some sitesBlob) :
    ∃ last, Reaches (step cipher startup.key1 lower intOf hosts) Event.Work
        (boots cipher floats startup.key1 ⟨directory, .down⟩ (startup.nonce SECRETS_FILENAME)
          (startup.nonce SHARES_FILENAME)) last ∧
      Agrees last.directory (boot (primitives cipher floats) indented startup files).2 ∧
      match (boot (primitives cipher floats) indented startup files).1 with
      | .ok config => last.process = booted floats config.secrets config.shares
      | .error _ => last.process = .failed := by
  have hostsFound := agrees HOSTS_FILENAME
  have sitesFound := agrees SITES_FILENAME
  rw [hostsThere] at hostsFound
  rw [sitesThere] at sitesFound
  simp only [boots, openOwnFiles, load, hostsThere, sitesThere]
  unfold boot
  rw [ensureHostsFile, ensureMirrored_present _ _ hostsFound]
  obtain ⟨hostsData, hostsLoaded, hostsOther⟩ | ⟨_, _, hostsLoaded, hostsOther⟩ :=
    @opened_cases cipher floats startup.key1 HOSTS_FILE_PURPOSE hostsBlob
  · rw [hostsLoaded, hostsOther, ok_bind]
    dsimp only [startupGuard]
    rw [ensureSitesFile, ensureMirrored_present _ _ sitesFound]
    obtain ⟨sitesData, sitesLoaded, sitesOther⟩ | ⟨_, _, sitesLoaded, sitesOther⟩ :=
      @opened_cases cipher floats startup.key1 SITES_FILE_PURPOSE sitesBlob
    · rw [sitesLoaded, sitesOther]
      dsimp only
      obtain ⟨last, reaches, comes⟩ := @ensureSecrets_comesTo cipher floats lower intOf hosts _ _ startup agrees writable
      refine ⟨last, reaches, ?_⟩
      cases secretsOutcome : ensureSecretsFile (primitives cipher floats) startup files with
      | mk outcome between =>
        rw [secretsOutcome] at comes
        cases outcome with
        | error exception => exact comes
        | ok secrets =>
          dsimp only at comes ⊢
          cases sharesOutcome : ensureSharesFile (primitives cipher floats) startup between with
          | mk outcome left =>
            rw [sharesOutcome] at comes
            cases outcome with
            | error exception => exact comes
            | ok shares => exact comes
    · rw [sitesLoaded, sitesOther]
      exact ⟨_, .refl, agrees, rfl⟩
  · rw [hostsLoaded, hostsOther]
    exact ⟨_, .refl, agrees, rfl⟩

end AtOnce

end Stages

end SecretWeb.Server.Recovery
