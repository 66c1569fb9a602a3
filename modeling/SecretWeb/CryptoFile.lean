import SecretWeb.Data.Bytes
import SecretWeb.Python.Json

/-! # Encrypted files

A file is an envelope around a JSON document, sealed under a key that is derived from KEY1
and the purpose of the file.  As elsewhere a JSON text stands as the document it is the
text of, so AES-GCM seals documents here; what it puts out is a type of its own, since the
program never looks into it. -/

namespace SecretWeb.CryptoFile

open SecretWeb.Data SecretWeb.Python

/-! ## Envelopes -/

/-- HKDF and AES-GCM; what was sealed is recovered under the same key, nonce and associated
data. -/
structure Primitives (Ciphertext : Type) where
  deriveKey : (key1 purpose : String) → Bytes
  aesGcmEncrypt : (key nonce : Bytes) → (plaintext : Json) → (associated : Bytes) → Ciphertext
  aesGcmDecrypt : (key nonce : Bytes) → Ciphertext → (associated : Bytes) → Option Json
  aesGcmDecrypt_encrypt : ∀ key nonce plaintext associated,
    aesGcmDecrypt key nonce (aesGcmEncrypt key nonce plaintext associated) associated = some plaintext

def MAGIC : Bytes := encodeUtf8 "SWCF"

def VERSION : UInt8 := 1

def HEADER_SIZE : Nat := 5

def NONCE_SIZE : Nat := 12

structure Nonce where
  bytes : Bytes
  size : bytes.length = NONCE_SIZE

/-- The bytes of a file: fewer than header and nonce take, or that many and the rest. -/
inductive File (Ciphertext : Type) where
  | short (bytes : Bytes)
  | whole (header nonce : Bytes) (ciphertext : Ciphertext)

def aad (purpose : String) : Bytes := MAGIC ++ [VERSION] ++ encodeUtf8 purpose

section Files

variable {Ciphertext : Type} (primitives : Primitives Ciphertext)

def encrypt (key1 purpose : String) (nonce : Nonce) (plaintext : Json) : File Ciphertext :=
  .whole (MAGIC ++ [VERSION]) nonce.bytes
    (primitives.aesGcmEncrypt (primitives.deriveKey key1 purpose) nonce.bytes plaintext (aad purpose))

def decrypt (key1 purpose : String) : File Ciphertext → Except PyException Json
  | .short _ => .error (.invalidCryptoFileError "file too short to be a valid cryptofile")
  | .whole header nonce ciphertext =>
    if header.take 4 ≠ MAGIC then .error (.invalidCryptoFileError "bad magic - not a cryptofile")
    else
      let version := (header[4]?).getD 0
      if version ≠ VERSION then
        .error (.invalidCryptoFileError ("unsupported cryptofile version: " ++ toString version.toNat))
      else
        match primitives.aesGcmDecrypt (primitives.deriveKey key1 purpose) nonce ciphertext (aad purpose) with
        | some plaintext => .ok plaintext
        | none =>
          .error (.invalidCryptoFileError ("decryption failed - wrong key, wrong purpose, or the file is " ++
            "tampered with or corrupted"))

/-! ## A data directory -/

abbrev Directory (Ciphertext : Type) := Dict (File Ciphertext)

-- the paths that can be written at the moment
variable (writable : String → Bool)

/-- A write that fails leaves the directory as it was. -/
def atomicWriteBytes (directory : Directory Ciphertext) (path : String) (data : File Ciphertext) :
    Except PyException Unit × Directory Ciphertext :=
  if writable path then (.ok (), Dict.set directory path data) else (.error .osError, directory)

def save (directory : Directory Ciphertext) (path key1 purpose : String) (nonce : Nonce) (data : Json) :
    Except PyException Unit × Directory Ciphertext :=
  atomicWriteBytes writable directory path (encrypt primitives key1 purpose nonce data)

def load (directory : Directory Ciphertext) (path key1 purpose : String) : Except PyException Json :=
  match Dict.get directory path with
  | none => .error .osError
  | some blob => decrypt primitives key1 purpose blob

def ensure (directory : Directory Ciphertext) (path key1 purpose : String) (nonce : Nonce) (default : Json) :
    Except PyException Json × Directory Ciphertext :=
  match Dict.get directory path with
  | none =>
    match save primitives writable directory path key1 purpose nonce default with
    | (.error exception, directory) => (.error exception, directory)
    | (.ok (), directory) => (.ok default, directory)
  | some _ => (load primitives directory path key1 purpose, directory)

-- the file with `json.dumps(data, indent=2)`
variable (indented : Json → File Ciphertext)

def saveMirrored (directory : Directory Ciphertext) (encryptedPath plaintextPath key1 purpose : String)
    (nonce : Nonce) (data : Json) : Except PyException Unit × Directory Ciphertext :=
  match save primitives writable directory encryptedPath key1 purpose nonce data with
  | (.error exception, directory) => (.error exception, directory)
  | (.ok (), directory) => atomicWriteBytes writable directory plaintextPath (indented data)

def ensureMirrored (directory : Directory Ciphertext) (encryptedPath plaintextPath key1 purpose : String)
    (nonce : Nonce) (default : Json) : Except PyException Json × Directory Ciphertext :=
  match Dict.get directory encryptedPath with
  | none =>
    match saveMirrored primitives writable indented directory encryptedPath plaintextPath key1 purpose nonce
      default with
    | (.error exception, directory) => (.error exception, directory)
    | (.ok (), directory) => (.ok default, directory)
  | some _ => (load primitives directory encryptedPath key1 purpose, directory)

end Files

/-! ## Opening what was sealed -/

section Opening

variable {Ciphertext : Type} {primitives : Primitives Ciphertext}

/-- The file was written under one of these KEY1s. -/
def SealedUnder (primitives : Primitives Ciphertext) (keys : Set String) (purpose : String)
    (blob : File Ciphertext) : Prop :=
  ∃ key1 ∈ keys, ∃ nonce plaintext, blob = encrypt primitives key1 purpose nonce plaintext

theorem SealedUnder.mono {keys more : Set String} (subset : keys ⊆ more) {purpose : String}
    {blob : File Ciphertext} (sealedUnder : SealedUnder primitives keys purpose blob) :
    SealedUnder primitives more purpose blob := by
  obtain ⟨key1, member, written⟩ := sealedUnder
  exact ⟨key1, subset member, written⟩

/-- AES-GCM refuses what was sealed under another KEY1. -/
def RejectsWrongKey (primitives : Primitives Ciphertext) : Prop :=
  ∀ key1 other, key1 ≠ other → ∀ purpose nonce plaintext,
    primitives.aesGcmDecrypt (primitives.deriveKey other purpose) nonce
      (primitives.aesGcmEncrypt (primitives.deriveKey key1 purpose) nonce plaintext (aad purpose)) (aad purpose) =
      none

/-- The envelope is taken apart as it was put together. -/
theorem decrypt_encrypt (key1 other purpose : String) (nonce : Nonce) (plaintext : Json) :
    decrypt primitives other purpose (encrypt primitives key1 purpose nonce plaintext) =
      match primitives.aesGcmDecrypt (primitives.deriveKey other purpose) nonce.bytes
        (primitives.aesGcmEncrypt (primitives.deriveKey key1 purpose) nonce.bytes plaintext (aad purpose))
        (aad purpose) with
      | some opened => .ok opened
      | none =>
        .error (.invalidCryptoFileError ("decryption failed - wrong key, wrong purpose, or the file is " ++
          "tampered with or corrupted")) := by
  have magic : (MAGIC ++ [VERSION]).take 4 = MAGIC := rfl
  have version : (MAGIC ++ [VERSION])[4]? = some VERSION := rfl
  simp only [decrypt, encrypt, magic, version, Option.getD_some, ne_eq, not_true, ↓reduceIte]

theorem decrypt_same (key1 purpose : String) (nonce : Nonce) (plaintext : Json) :
    decrypt primitives key1 purpose (encrypt primitives key1 purpose nonce plaintext) = .ok plaintext := by
  rw [decrypt_encrypt, primitives.aesGcmDecrypt_encrypt]

theorem decrypt_other (rejects : RejectsWrongKey primitives) {keys : Set String} {key1 purpose : String}
    {blob : File Ciphertext} (sealedUnder : SealedUnder primitives keys purpose blob) (fresh : key1 ∉ keys) :
    ∃ message, decrypt primitives key1 purpose blob = .error (.invalidCryptoFileError message) := by
  obtain ⟨earlier, member, nonce, plaintext, rfl⟩ := sealedUnder
  have different : earlier ≠ key1 := by
    rintro rfl
    exact fresh member
  rw [decrypt_encrypt, rejects earlier key1 different]
  exact ⟨_, rfl⟩

end Opening

end SecretWeb.CryptoFile
