import SecretWeb.CryptoFile

/-! # Booting a server

A server is started with KEY1 and opens its four data files in turn, creating those that
are not there; the first that cannot be opened is reported back and ends the start. -/

namespace SecretWeb.Server

open SecretWeb.Python SecretWeb.CryptoFile

def HOSTS_FILENAME : String := "hosts.dta"

def HOSTS_PLAINTEXT_FILENAME : String := "hosts.json"

def HOSTS_FILE_PURPOSE : String := "secretweb-hosts-v1"

def SITES_FILENAME : String := "sites.dta"

def SITES_PLAINTEXT_FILENAME : String := "sites.json"

def SITES_FILE_PURPOSE : String := "secretweb-sites-v1"

def SECRETS_FILENAME : String := "secrets.dta"

def SECRETS_FILE_PURPOSE : String := "secretweb-secrets-v1"

def SHARES_FILENAME : String := "shares.dta"

def SHARES_FILE_PURPOSE : String := "secretweb-shares-v1"

/-- What a starting server is handed and what it takes from its environment. -/
structure Startup where
  key1 : String
  hostname : String
  ownPort : Int
  now : String
  nonce : (path : String) → Nonce
  writable : (path : String) → Bool

def defaultHostsData (startup : Startup) : Json :=
  .dict [("hosts", .dict [(startup.hostname, .dict [("address", .str "127.0.0.1"),
    ("all_addresses", .list [.str "127.0.0.1"]), ("port", .int startup.ownPort), ("role", .str "server"),
    ("status", .str "local"), ("site", .str ""), ("online", .str "unknown"),
    ("last_updated", .str startup.now)])])]

def defaultSitesData : Json := .dict [("sites", .dict [])]

def defaultSecretsData : Json := .dict [("secrets", .dict [])]

def defaultSharesData : Json := .dict [("shares", .dict [])]

/-- The documents a server holds once it has booted. -/
structure Config where
  hosts : Json
  sites : Json
  secrets : Json
  shares : Json

section Boot

variable {Ciphertext : Type} (primitives : Primitives Ciphertext) (indented : Json → File Ciphertext)

def ensureHostsFile (startup : Startup) (directory : Directory Ciphertext) :
    Except PyException Json × Directory Ciphertext :=
  ensureMirrored primitives startup.writable indented directory HOSTS_FILENAME HOSTS_PLAINTEXT_FILENAME
    startup.key1 HOSTS_FILE_PURPOSE (startup.nonce HOSTS_FILENAME) (defaultHostsData startup)

def ensureSitesFile (startup : Startup) (directory : Directory Ciphertext) :
    Except PyException Json × Directory Ciphertext :=
  ensureMirrored primitives startup.writable indented directory SITES_FILENAME SITES_PLAINTEXT_FILENAME
    startup.key1 SITES_FILE_PURPOSE (startup.nonce SITES_FILENAME) defaultSitesData

def ensureSecretsFile (startup : Startup) (directory : Directory Ciphertext) :
    Except PyException Json × Directory Ciphertext :=
  ensure primitives startup.writable directory SECRETS_FILENAME startup.key1 SECRETS_FILE_PURPOSE
    (startup.nonce SECRETS_FILENAME) defaultSecretsData

def ensureSharesFile (startup : Startup) (directory : Directory Ciphertext) :
    Except PyException Json × Directory Ciphertext :=
  ensure primitives startup.writable directory SHARES_FILENAME startup.key1 SHARES_FILE_PURPOSE
    (startup.nonce SHARES_FILENAME) defaultSharesData

/-- `_startup_guard`: what raises is reported back to whoever has started the server. -/
def startupGuard {α : Type} (description : String) : Except PyException α → Except String α
  | .ok value => .ok value
  | .error exception => .error ("failed to initialize " ++ description ++ ": " ++ exception.text)

def boot (startup : Startup) (directory : Directory Ciphertext) : Except String Config × Directory Ciphertext :=
  let (outcome, directory) := ensureHostsFile primitives indented startup directory
  match startupGuard "hosts.dta" outcome with
  | .error report => (.error report, directory)
  | .ok hosts =>
    let (outcome, directory) := ensureSitesFile primitives indented startup directory
    match startupGuard "sites.dta" outcome with
    | .error report => (.error report, directory)
    | .ok sites =>
      let (outcome, directory) := ensureSecretsFile primitives startup directory
      match startupGuard "secrets.dta" outcome with
      | .error report => (.error report, directory)
      | .ok secrets =>
        let (outcome, directory) := ensureSharesFile primitives startup directory
        match startupGuard "shares.dta" outcome with
        | .error report => (.error report, directory)
        | .ok shares => (.ok { hosts := hosts, sites := sites, secrets := secrets, shares := shares }, directory)

variable {primitives indented}

/-! ## What a boot writes -/

/-- The purpose of each encrypted file. -/
def purposes : Dict String :=
  [(HOSTS_FILENAME, HOSTS_FILE_PURPOSE), (SITES_FILENAME, SITES_FILE_PURPOSE),
    (SECRETS_FILENAME, SECRETS_FILE_PURPOSE), (SHARES_FILENAME, SHARES_FILE_PURPOSE)]

/-- Every encrypted file that is there was written under one of these KEY1s. -/
def Sealed (primitives : Primitives Ciphertext) (keys : Set String) (directory : Directory Ciphertext) : Prop :=
  ∀ path purpose, Dict.get purposes path = some purpose → ∀ blob, Dict.get directory path = some blob →
    SealedUnder primitives keys purpose blob

theorem Sealed.mono {keys more : Set String} (subset : keys ⊆ more) {directory : Directory Ciphertext}
    (sealedFiles : Sealed primitives keys directory) : Sealed primitives more directory :=
  fun path purpose known blob found => (sealedFiles path purpose known blob found).mono subset

/-- Writing an encrypted file under one of the keys keeps the directory sealed. -/
theorem Sealed.set_encrypt {keys : Set String} {directory : Directory Ciphertext} {path purpose key1 : String}
    (sealedFiles : Sealed primitives keys directory) (known : Dict.get purposes path = some purpose)
    (used : key1 ∈ keys) (nonce : Nonce) (data : Json) :
    Sealed primitives keys (Dict.set directory path (encrypt primitives key1 purpose nonce data)) := by
  intro other otherPurpose otherKnown blob found
  rw [Dict.get_set] at found
  by_cases same : other = path
  · subst same
    rw [if_pos rfl] at found
    cases found
    cases known.symm.trans otherKnown
    exact ⟨key1, used, nonce, data, rfl⟩
  · rw [if_neg same] at found
    exact sealedFiles other otherPurpose otherKnown blob found

/-- Files of other names do not matter. -/
theorem Sealed.set_other {keys : Set String} {directory : Directory Ciphertext} {path : String}
    (sealedFiles : Sealed primitives keys directory) (unknown : Dict.get purposes path = none)
    (file : File Ciphertext) : Sealed primitives keys (Dict.set directory path file) := by
  intro other purpose known blob found
  have different : other ≠ path := by
    rintro rfl
    cases unknown.symm.trans known
  rw [Dict.get_set_ne _ _ different] at found
  exact sealedFiles other purpose known blob found

theorem Sealed.save {keys : Set String} {directory : Directory Ciphertext} {path purpose key1 : String}
    {writable : String → Bool} (sealedFiles : Sealed primitives keys directory)
    (known : Dict.get purposes path = some purpose) (used : key1 ∈ keys) (nonce : Nonce) (data : Json) :
    Sealed primitives keys (save primitives writable directory path key1 purpose nonce data).2 := by
  rw [CryptoFile.save, atomicWriteBytes]
  split
  · exact sealedFiles.set_encrypt known used nonce data
  · exact sealedFiles

theorem Sealed.saveMirrored {keys : Set String} {directory : Directory Ciphertext}
    {path plaintextPath purpose key1 : String} {writable : String → Bool}
    (sealedFiles : Sealed primitives keys directory) (known : Dict.get purposes path = some purpose)
    (plain : Dict.get purposes plaintextPath = none) (used : key1 ∈ keys) (nonce : Nonce) (data : Json) :
    Sealed primitives keys
      (saveMirrored primitives writable indented directory path plaintextPath key1 purpose nonce data).2 := by
  have saved : Sealed primitives keys (CryptoFile.save primitives writable directory path key1 purpose nonce data).2 :=
    sealedFiles.save known used nonce data
  rw [CryptoFile.saveMirrored]
  cases outcome : CryptoFile.save primitives writable directory path key1 purpose nonce data with
  | mk result after =>
    rw [outcome] at saved
    cases result with
    | error exception => exact saved
    | ok done =>
      dsimp only
      rw [atomicWriteBytes]
      split
      · exact saved.set_other plain _
      · exact saved

theorem Sealed.ensure {keys : Set String} {directory : Directory Ciphertext} {path purpose key1 : String}
    {writable : String → Bool} (sealedFiles : Sealed primitives keys directory)
    (known : Dict.get purposes path = some purpose) (used : key1 ∈ keys) (nonce : Nonce) (data : Json) :
    Sealed primitives keys (ensure primitives writable directory path key1 purpose nonce data).2 := by
  rw [CryptoFile.ensure]
  cases Dict.get directory path with
  | some blob => exact sealedFiles
  | none =>
    have saved : Sealed primitives keys
        (CryptoFile.save primitives writable directory path key1 purpose nonce data).2 :=
      sealedFiles.save known used nonce data
    dsimp only
    split
    · rename_i outcome
      rwa [outcome] at saved
    · rename_i outcome
      rwa [outcome] at saved

theorem Sealed.ensureMirrored {keys : Set String} {directory : Directory Ciphertext}
    {path plaintextPath purpose key1 : String} {writable : String → Bool}
    (sealedFiles : Sealed primitives keys directory) (known : Dict.get purposes path = some purpose)
    (plain : Dict.get purposes plaintextPath = none) (used : key1 ∈ keys) (nonce : Nonce) (data : Json) :
    Sealed primitives keys
      (ensureMirrored primitives writable indented directory path plaintextPath key1 purpose nonce data).2 := by
  rw [CryptoFile.ensureMirrored]
  cases Dict.get directory path with
  | some blob => exact sealedFiles
  | none =>
    have saved : Sealed primitives keys (CryptoFile.saveMirrored primitives writable indented directory path
        plaintextPath key1 purpose nonce data).2 :=
      sealedFiles.saveMirrored known plain used nonce data
    dsimp only
    split
    · rename_i outcome
      rwa [outcome] at saved
    · rename_i outcome
      rwa [outcome] at saved

/-- A boot, successful or not, writes under its own KEY1 only. -/
theorem Sealed.boot {keys : Set String} {directory : Directory Ciphertext} {startup : Startup}
    (sealedFiles : Sealed primitives keys directory) (used : startup.key1 ∈ keys) :
    Sealed primitives keys (boot primitives indented startup directory).2 := by
  have hosts : Sealed primitives keys (ensureHostsFile primitives indented startup directory).2 :=
    sealedFiles.ensureMirrored rfl rfl used _ _
  unfold Server.boot
  dsimp only
  split
  · exact hosts
  · have sites : Sealed primitives keys (ensureSitesFile primitives indented startup _).2 :=
      hosts.ensureMirrored rfl rfl used _ _
    split
    · exact sites
    · have secrets : Sealed primitives keys (ensureSecretsFile primitives startup _).2 :=
        sites.ensure rfl used _ _
      split
      · exact secrets
      · have shares : Sealed primitives keys (ensureSharesFile primitives startup _).2 :=
          secrets.ensure rfl used _ _
        split
        · exact shares
        · exact shares

/-! ## When a boot succeeds -/

theorem ensureMirrored_present {directory : Directory Ciphertext} {writable : String → Bool}
    {path plaintextPath purpose key1 : String} {blob : File Ciphertext} (nonce : Nonce) (data : Json)
    (found : Dict.get directory path = some blob) :
    ensureMirrored primitives writable indented directory path plaintextPath key1 purpose nonce data =
      (decrypt primitives key1 purpose blob, directory) := by
  rw [ensureMirrored, found]
  dsimp only
  rw [load, found]

theorem ensure_present {directory : Directory Ciphertext} {writable : String → Bool} {path purpose key1 : String}
    {blob : File Ciphertext} (nonce : Nonce) (data : Json) (found : Dict.get directory path = some blob) :
    ensure primitives writable directory path key1 purpose nonce data =
      (decrypt primitives key1 purpose blob, directory) := by
  rw [ensure, found]
  dsimp only
  rw [load, found]

theorem ensure_absent {directory : Directory Ciphertext} {writable : String → Bool} {path purpose key1 : String}
    (nonce : Nonce) (data : Json) (absent : Dict.get directory path = none) (written : writable path = true) :
    ensure primitives writable directory path key1 purpose nonce data =
      (.ok data, Dict.set directory path (encrypt primitives key1 purpose nonce data)) := by
  rw [ensure, absent]
  dsimp only
  rw [save, atomicWriteBytes, if_pos written]

/-- With the first three files under its own KEY1, everything hangs on the last one. -/
theorem boot_of_saved {directory : Directory Ciphertext} {startup : Startup}
    {hostsNonce sitesNonce secretsNonce : Nonce}
    {hostsData sitesData secretsData : Json}
    (hosts : Dict.get directory HOSTS_FILENAME =
      some (encrypt primitives startup.key1 HOSTS_FILE_PURPOSE hostsNonce hostsData))
    (sites : Dict.get directory SITES_FILENAME =
      some (encrypt primitives startup.key1 SITES_FILE_PURPOSE sitesNonce sitesData))
    (secrets : Dict.get directory SECRETS_FILENAME =
      some (encrypt primitives startup.key1 SECRETS_FILE_PURPOSE secretsNonce secretsData)) :
    boot primitives indented startup directory =
      match ensureSharesFile primitives startup directory with
      | (outcome, after) =>
        match startupGuard "shares.dta" outcome with
        | .error report => (.error report, after)
        | .ok shares => (.ok ⟨hostsData, sitesData, secretsData, shares⟩, after) := by
  have hostsOpened : ensureHostsFile primitives indented startup directory = (.ok hostsData, directory) := by
    rw [ensureHostsFile, ensureMirrored_present _ _ hosts, decrypt_same]
  have sitesOpened : ensureSitesFile primitives indented startup directory = (.ok sitesData, directory) := by
    rw [ensureSitesFile, ensureMirrored_present _ _ sites, decrypt_same]
  have secretsOpened : ensureSecretsFile primitives startup directory = (.ok secretsData, directory) := by
    rw [ensureSecretsFile, ensure_present _ _ secrets, decrypt_same]
  unfold boot
  simp only [hostsOpened, sitesOpened, secretsOpened, startupGuard]

end Boot

end SecretWeb.Server
