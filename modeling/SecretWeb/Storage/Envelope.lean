import SecretWeb.CryptoFile
import SecretWeb.Python.JsonText

/-! # Encrypted files, byte by byte

The envelope as it lies on disk, around the JSON text of a document: a header, a nonce and
what AES-GCM puts out.  Seen through `File.ofBytes` it is the envelope around documents. -/

namespace SecretWeb.Storage

open SecretWeb.Data SecretWeb.Python SecretWeb.Python.JsonText

open SecretWeb.CryptoFile (MAGIC VERSION HEADER_SIZE NONCE_SIZE Nonce aad File Primitives)

/-- HKDF and AES-GCM on bytes; what was sealed is recovered.  `none` stands for `InvalidTag`
and for `ValueError`. -/
structure Cipher where
  hkdf : (secret info : Bytes) → Bytes
  encrypt : (key nonce plaintext associated : Bytes) → Bytes
  decrypt : (key nonce ciphertext associated : Bytes) → Option Bytes
  decrypt_encrypt : ∀ key nonce plaintext associated,
    decrypt key nonce (encrypt key nonce plaintext associated) associated = some plaintext

/-- A document as a program can have one. -/
structure Document (floats : FloatText) where
  value : Json
  writable : Writable floats value

section Envelope

variable (cipher : Cipher)

def deriveKey (key1 purpose : String) : Bytes := cipher.hkdf (encodeUtf8 key1) (encodeUtf8 purpose)

def encrypt (key1 purpose : String) (nonce : Nonce) (plaintext : Bytes) : Bytes :=
  MAGIC ++ [VERSION] ++ nonce.bytes ++
    cipher.encrypt (deriveKey cipher key1 purpose) nonce.bytes plaintext (aad purpose)

/-- The nonce and the ciphertext of an envelope. -/
def partsOf (blob : Bytes) : Except PyException (Bytes × Bytes) :=
  if blob.length < HEADER_SIZE + NONCE_SIZE then
    .error (.invalidCryptoFileError "file too short to be a valid cryptofile")
  else if blob.take 4 ≠ MAGIC then .error (.invalidCryptoFileError "bad magic - not a cryptofile")
  else
    let version := (blob[4]?).getD 0
    if version ≠ VERSION then
      .error (.invalidCryptoFileError ("unsupported cryptofile version: " ++ toString version.toNat))
    else .ok ((blob.drop HEADER_SIZE).take NONCE_SIZE, blob.drop (HEADER_SIZE + NONCE_SIZE))

/-- `AESGCM(key).decrypt`, with what it raises reported. -/
def aesGcmDecrypt (key nonce ciphertext associated : Bytes) : Except PyException Bytes :=
  match cipher.decrypt key nonce ciphertext associated with
  | some plaintext => .ok plaintext
  | none =>
    .error (.invalidCryptoFileError ("decryption failed - wrong key, wrong purpose, or the file is " ++
      "tampered with or corrupted"))

def decrypt (key1 purpose : String) (blob : Bytes) : Except PyException Bytes := do
  let (nonce, ciphertext) ← partsOf blob
  aesGcmDecrypt cipher (deriveKey cipher key1 purpose) nonce ciphertext (aad purpose)

variable (floats : FloatText)

/-- `json.dumps(data).encode("utf-8")`. -/
def plaintext (data : Json) : Bytes := encodeUtf8 (dumps floats data)

/-- `json.loads` of decrypted bytes. -/
def document (bytes : Bytes) : Except PyException Json :=
  match decodeUtf8 bytes with
  | none => .error .unicodeDecodeError
  | some text =>
    match loads floats.float text with
    | none => .error .jsonDecodeError
    | some value => .ok value

/-- The bytes that `save` writes. -/
def blob (key1 purpose : String) (nonce : Nonce) (data : Json) : Bytes :=
  encrypt cipher key1 purpose nonce (plaintext floats data)

/-- `load`, from the bytes of the file on. -/
def opened (key1 purpose : String) (blob : Bytes) : Except PyException Json := do
  let plaintext ← decrypt cipher key1 purpose blob
  document floats plaintext

abbrev Directory := Dict Bytes

def load (directory : Directory) (path key1 purpose : String) : Except PyException Json :=
  match Dict.get directory path with
  | none => .error .osError
  | some blob => opened cipher floats key1 purpose blob

/-! ## Opening what was saved -/

variable {cipher floats}

theorem document_plaintext {data : Json} (writable : Writable floats data) :
    document floats (plaintext floats data) = .ok data := by
  rw [document, plaintext, decodeUtf8_encodeUtf8]
  dsimp only
  rw [loads_dumps writable]

/-- An envelope of the right size is taken apart at fixed offsets. -/
theorem parts_of_encrypt (nonce : Nonce) (ciphertext : Bytes) :
    (MAGIC ++ [VERSION] ++ nonce.bytes ++ ciphertext).take 4 = MAGIC ∧
      (MAGIC ++ [VERSION] ++ nonce.bytes ++ ciphertext)[4]? = some VERSION ∧
      ((MAGIC ++ [VERSION] ++ nonce.bytes ++ ciphertext).drop HEADER_SIZE).take NONCE_SIZE = nonce.bytes ∧
      (MAGIC ++ [VERSION] ++ nonce.bytes ++ ciphertext).drop (HEADER_SIZE + NONCE_SIZE) = ciphertext := by
  have header : (MAGIC ++ [VERSION]).length = HEADER_SIZE := rfl
  have rest : (MAGIC ++ [VERSION] ++ nonce.bytes ++ ciphertext).drop HEADER_SIZE = nonce.bytes ++ ciphertext := by
    rw [List.append_assoc, ← header, List.drop_left]
  refine ⟨rfl, rfl, ?_, ?_⟩
  · rw [rest, ← nonce.size, List.take_left]
  · rw [← List.drop_drop, rest, ← nonce.size, List.drop_left]

/-- What is put together is taken apart again. -/
theorem partsOf_envelope (nonce : Nonce) (ciphertext : Bytes) :
    partsOf (MAGIC ++ [VERSION] ++ nonce.bytes ++ ciphertext) = .ok (nonce.bytes, ciphertext) := by
  obtain ⟨magic, version, nonceBytes, rest⟩ := parts_of_encrypt nonce ciphertext
  have long : ¬(MAGIC ++ [VERSION] ++ nonce.bytes ++ ciphertext).length < HEADER_SIZE + NONCE_SIZE := by
    have size := nonce.size
    have header : (MAGIC ++ [VERSION]).length = HEADER_SIZE := rfl
    simp only [List.length_append] at header ⊢
    omega
  rw [partsOf, if_neg long]
  simp only [magic, version, nonceBytes, rest, ne_eq, not_true, ↓reduceIte, Option.getD_some]

theorem aesGcmDecrypt_encrypt (key nonce text associated : Bytes) :
    aesGcmDecrypt cipher key nonce (cipher.encrypt key nonce text associated) associated = .ok text := by
  rw [aesGcmDecrypt, cipher.decrypt_encrypt]

theorem decrypt_encrypt (key1 purpose : String) (nonce : Nonce) (text : Bytes) :
    decrypt cipher key1 purpose (encrypt cipher key1 purpose nonce text) = .ok text := by
  rw [decrypt, encrypt, partsOf_envelope, ok_bind]
  exact aesGcmDecrypt_encrypt _ _ _ _

/-- A document with one empty map, as every store starts with. -/
theorem writable_empty (field : String) : Writable floats (.dict [(field, .dict [])]) :=
  ⟨List.nodup_singleton field, ⟨List.nodup_nil, trivial⟩, trivial⟩

theorem opened_blob (key1 purpose : String) (nonce : Nonce) {data : Json} (writable : Writable floats data) :
    opened cipher floats key1 purpose (blob cipher floats key1 purpose nonce data) = .ok data := by
  rw [opened, blob, decrypt_encrypt, ok_bind, document_plaintext writable]

/-! ## The envelope around documents -/

section Abstraction

/-- What AES-GCM puts out for a document; the second case is for values of the type that no
program has. -/
inductive Sealed where
  | bytes (ciphertext : Bytes)
  | unwritable (key nonce associated : Bytes) (data : Json)

open Classical in
/-- AES-GCM on the texts of documents. -/
noncomputable def primitives (cipher : Cipher) (floats : FloatText) : Primitives Sealed where
  deriveKey := deriveKey cipher
  aesGcmEncrypt := fun key nonce data associated =>
    if Writable floats data then .bytes (cipher.encrypt key nonce (plaintext floats data) associated)
    else .unwritable key nonce associated data
  aesGcmDecrypt := fun key nonce ciphertext associated =>
    match ciphertext with
    | .bytes ciphertext =>
      (cipher.decrypt key nonce ciphertext associated).bind fun text => (document floats text).toOption
    | .unwritable sealedKey sealedNonce sealedAssociated data =>
      if key = sealedKey ∧ nonce = sealedNonce ∧ associated = sealedAssociated then some data else none
  aesGcmDecrypt_encrypt := by
    intro key nonce data associated
    by_cases writable : Writable floats data
    · rw [if_pos writable]
      dsimp only
      rw [cipher.decrypt_encrypt, Option.bind_some, document_plaintext writable]
      rfl
    · rw [if_neg writable]
      dsimp only
      rw [if_pos ⟨rfl, rfl, rfl⟩]

/-- The bytes of a file, taken apart. -/
def fileOf (blob : Bytes) : File Sealed :=
  if blob.length < HEADER_SIZE + NONCE_SIZE then .short blob
  else .whole (blob.take HEADER_SIZE) ((blob.drop HEADER_SIZE).take NONCE_SIZE)
    (.bytes (blob.drop (HEADER_SIZE + NONCE_SIZE)))

/-- What `save` writes is the envelope around the document. -/
theorem fileOf_blob (key1 purpose : String) (nonce : Nonce) {data : Json} (writable : Writable floats data) :
    fileOf (blob cipher floats key1 purpose nonce data) =
      CryptoFile.encrypt (primitives cipher floats) key1 purpose nonce data := by
  obtain ⟨_, _, nonceBytes, ciphertext⟩ := parts_of_encrypt nonce
    (cipher.encrypt (deriveKey cipher key1 purpose) nonce.bytes (plaintext floats data) (aad purpose))
  have long : ¬(blob cipher floats key1 purpose nonce data).length < HEADER_SIZE + NONCE_SIZE := by
    have size := nonce.size
    have header : (MAGIC ++ [VERSION]).length = HEADER_SIZE := rfl
    simp only [blob, encrypt, List.length_append] at header ⊢
    omega
  have header : (blob cipher floats key1 purpose nonce data).take HEADER_SIZE = MAGIC ++ [VERSION] := rfl
  rw [fileOf, if_neg long, header]
  simp only [blob, encrypt, nonceBytes, ciphertext, CryptoFile.encrypt, primitives, if_pos writable]

/-- Both envelopes open to the same documents. -/
theorem opened_eq_ok_iff (key1 purpose : String) (blob : Bytes) (data : Json) :
    opened cipher floats key1 purpose blob = .ok data ↔
      CryptoFile.decrypt (primitives cipher floats) key1 purpose (fileOf blob) = .ok data := by
  rw [opened, decrypt, fileOf, partsOf]
  by_cases short : blob.length < HEADER_SIZE + NONCE_SIZE
  · simp [short, CryptoFile.decrypt]
  · rw [if_neg short, if_neg short, CryptoFile.decrypt]
    have magic : (blob.take HEADER_SIZE).take 4 = blob.take 4 := by rw [List.take_take]; rfl
    have version : (blob.take HEADER_SIZE)[4]? = blob[4]? := List.getElem?_take_of_lt (by decide)
    rw [magic, version]
    by_cases wrongMagic : blob.take 4 ≠ MAGIC
    · simp [wrongMagic]
    · rw [if_neg wrongMagic, if_neg wrongMagic]
      dsimp only
      by_cases wrongVersion : (blob[4]?).getD 0 ≠ VERSION
      · simp [wrongVersion]
      · rw [if_neg wrongVersion, if_neg wrongVersion, ok_bind]
        dsimp only [primitives, aesGcmDecrypt]
        cases cipher.decrypt (deriveKey cipher key1 purpose) ((blob.drop HEADER_SIZE).take NONCE_SIZE)
            (blob.drop (HEADER_SIZE + NONCE_SIZE)) (aad purpose) with
        | none => simp
        | some text =>
          rw [Option.bind_some, ok_bind]
          cases document floats text with
          | error exception => simp [Except.toOption]
          | ok value => simp [Except.toOption]

/-- The same files, byte by byte and taken apart. -/
def Agrees (directory : Directory) (files : CryptoFile.Directory Sealed) : Prop :=
  ∀ name, Dict.get files name = (Dict.get directory name).map fileOf

theorem Agrees.none_iff {directory : Directory} {files : CryptoFile.Directory Sealed}
    (agrees : Agrees directory files) (name : String) : Dict.get files name = none ↔ Dict.get directory name = none := by
  rw [agrees name, Option.map_eq_none_iff]

theorem Agrees.set {directory : Directory} {files : CryptoFile.Directory Sealed}
    (agrees : Agrees directory files) (path : String) (data : Bytes) :
    Agrees (Dict.set directory path data) (Dict.set files path (fileOf data)) := by
  intro name
  rw [Dict.get_set, Dict.get_set]
  split
  · rfl
  · exact agrees name

end Abstraction

end Envelope

end SecretWeb.Storage
