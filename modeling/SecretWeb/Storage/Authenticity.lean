import SecretWeb.Python.Text
import SecretWeb.Storage.Envelope
import Mathlib.Data.List.Basic

/-! # What an encrypted file can be made to say

Honest saves and an attacker who puts arbitrary bytes into any file.  As long as AES-GCM
opens, under the key and the purpose of a load, only what a save has sealed, a load returns
what a save with that KEY1 and purpose was given, or raises `InvalidCryptoFileError`. -/

namespace SecretWeb.Storage

open SecretWeb.Data SecretWeb.Python SecretWeb.Python.JsonText

open SecretWeb.CryptoFile (MAGIC VERSION HEADER_SIZE NONCE_SIZE Nonce)

/-! ## Keys and purposes that may have no UTF-8 -/

def encode (text : List CodePoint) : Except PyException Bytes :=
  match encodeText text with
  | some bytes => .ok bytes
  | none => .error .unicodeEncodeError

namespace CodePoints

variable (cipher : Cipher) (floats : FloatText)

def deriveKey (key1 purpose : List CodePoint) : Except PyException Bytes := do
  let info ← encode purpose
  let secret ← encode key1
  return cipher.hkdf secret info

def aad (purpose : List CodePoint) : Except PyException Bytes := do
  let label ← encode purpose
  return MAGIC ++ [VERSION] ++ label

def encrypt (key1 purpose : List CodePoint) (nonce : Nonce) (plaintext : Bytes) : Except PyException Bytes := do
  let key ← deriveKey cipher key1 purpose
  let associated ← aad purpose
  return MAGIC ++ [VERSION] ++ nonce.bytes ++ cipher.encrypt key nonce.bytes plaintext associated

/-- The key is derived before the `try`, so that what `encode` raises is not reported; after
that the purpose can be encoded. -/
def decrypt (key1 purpose : List CodePoint) (blob : Bytes) : Except PyException Bytes := do
  let (nonce, ciphertext) ← partsOf blob
  let key ← deriveKey cipher key1 purpose
  let associated ← aad purpose
  aesGcmDecrypt cipher key nonce ciphertext associated

/-- `load`, from the bytes of the file on. -/
def opened (key1 purpose : List CodePoint) (blob : Bytes) : Except PyException Json := do
  let plaintext ← decrypt cipher key1 purpose blob
  document floats plaintext

def load (directory : Directory) (path : String) (key1 purpose : List CodePoint) : Except PyException Json :=
  match Dict.get directory path with
  | none => .error .osError
  | some blob => opened cipher floats key1 purpose blob

variable {cipher floats}

theorem encode_codePoints (text : String) : encode (codePoints text) = .ok (encodeUtf8 text) := by
  rw [encode, encodeText_codePoints]

theorem encode_eq_ok {text : List CodePoint} {bytes : Bytes} (encoded : encode text = .ok bytes) :
    encodeText text = some bytes := by
  rw [encode] at encoded
  split at encoded
  · rename_i found
    cases encoded
    exact found
  · cases encoded

theorem deriveKey_codePoints (key1 purpose : String) :
    deriveKey cipher (codePoints key1) (codePoints purpose) = .ok (Storage.deriveKey cipher key1 purpose) := by
  rw [deriveKey, encode_codePoints, encode_codePoints]
  rfl

theorem aad_codePoints (purpose : String) : aad (codePoints purpose) = .ok (CryptoFile.aad purpose) := by
  rw [aad, encode_codePoints]
  rfl

/-- Keys and purposes of scalar values are used as elsewhere. -/
theorem load_codePoints (directory : Directory) (path key1 purpose : String) :
    load cipher floats directory path (codePoints key1) (codePoints purpose) =
      Storage.load cipher floats directory path key1 purpose := by
  rw [load, Storage.load]
  cases Dict.get directory path with
  | none => rfl
  | some blob =>
    show opened cipher floats (codePoints key1) (codePoints purpose) blob = Storage.opened cipher floats key1 purpose blob
    rw [opened, Storage.opened, decrypt, Storage.decrypt, deriveKey_codePoints, aad_codePoints]
    rfl

/-- A key or a purpose without UTF-8 is the only thing that `_derive_key` raises for. -/
theorem deriveKey_cases (key1 purpose : List CodePoint) :
    (∃ key associated, deriveKey cipher key1 purpose = .ok key ∧ aad purpose = .ok associated) ∨
      deriveKey cipher key1 purpose = .error .unicodeEncodeError ∧ (encodeText key1 = none ∨ encodeText purpose = none) := by
  simp only [deriveKey, aad, encode]
  cases purposeEncoded : encodeText purpose with
  | none => exact .inr ⟨rfl, .inr rfl⟩
  | some label =>
    cases keyEncoded : encodeText key1 with
    | none => exact .inr ⟨rfl, .inl rfl⟩
    | some secret => exact .inl ⟨_, _, rfl, rfl⟩

/-- An envelope opens under the key and the purpose that it was put together with. -/
theorem opened_encrypt {key1 purpose : List CodePoint} {nonce : Nonce} {data : Json} {blob : Bytes}
    (writable : Writable floats data) (encrypted : encrypt cipher key1 purpose nonce (plaintext floats data) = .ok blob) :
    opened cipher floats key1 purpose blob = .ok data := by
  obtain ⟨key, derived, encrypted⟩ := bind_eq_ok.mp encrypted
  obtain ⟨associated, bound, encrypted⟩ := bind_eq_ok.mp encrypted
  cases encrypted
  rw [opened, decrypt, partsOf_envelope, ok_bind]
  dsimp only
  rw [derived, ok_bind, bound, ok_bind, aesGcmDecrypt_encrypt, ok_bind, document_plaintext writable]

end CodePoints

/-! ## Runs -/

/-- A save, which leaves the file as it was unless its write succeeds, or the attacker. -/
inductive FileEvent (floats : FloatText) where
  | save (path : String) (key1 purpose : List CodePoint) (nonce : Nonce) (data : Document floats) (written : Bool)
  | replace (path : String) (bytes : Bytes)

section Runs

variable (cipher : Cipher) {floats : FloatText}

/-- The file that an event changes; a save without an envelope changes none. -/
def FileEvent.touched : FileEvent floats → Option String
  | .save path key1 purpose _ _ written =>
    if (encodeText key1).isSome ∧ (encodeText purpose).isSome ∧ written then some path else none
  | .replace path _ => some path

def FileEvent.apply (directory : Directory) : FileEvent floats → Directory
  | .save path key1 purpose nonce data written =>
    match CodePoints.encrypt cipher key1 purpose nonce (plaintext floats data.value), written with
    | .ok blob, true => Dict.set directory path blob
    | _, _ => directory
  | .replace path bytes => Dict.set directory path bytes

def afterRun (directory : Directory) (run : List (FileEvent floats)) : Directory :=
  run.foldl (FileEvent.apply cipher) directory

/-- A save of the run has sealed this ciphertext under this key, nonce and associated data. -/
def Produced (run : List (FileEvent floats)) (key nonce ciphertext associated : Bytes) : Prop :=
  ∃ path key1 purpose saveNonce data written, .save path key1 purpose saveNonce data written ∈ run ∧
    CodePoints.deriveKey cipher key1 purpose = .ok key ∧ nonce = saveNonce.bytes ∧
    CodePoints.aad purpose = .ok associated ∧
    ciphertext = cipher.encrypt key nonce (plaintext floats data.value) associated

/-- AES-GCM does not open the ciphertext in these bytes unless the run has produced it. -/
def Unforged (run : List (FileEvent floats)) (key1 purpose : List CodePoint) (blob : Bytes) : Prop :=
  ∀ key associated, CodePoints.deriveKey cipher key1 purpose = .ok key → CodePoints.aad purpose = .ok associated →
    (cipher.decrypt key ((blob.drop HEADER_SIZE).take NONCE_SIZE) (blob.drop (HEADER_SIZE + NONCE_SIZE))
      associated).isSome = true →
    Produced cipher run key ((blob.drop HEADER_SIZE).take NONCE_SIZE) (blob.drop (HEADER_SIZE + NONCE_SIZE)) associated

/-- HKDF gives different keys to different KEY1s and purposes. -/
def KeysApart : Prop :=
  ∀ key1 purpose other otherPurpose key, CodePoints.deriveKey cipher key1 purpose = .ok key →
    CodePoints.deriveKey cipher other otherPurpose = .ok key → key1 = other ∧ purpose = otherPurpose

/-- The run has saved the document under this KEY1 and purpose. -/
def Saved (run : List (FileEvent floats)) (key1 purpose : List CodePoint) (data : Json) : Prop :=
  ∃ path nonce document written, .save path key1 purpose nonce document written ∈ run ∧ data = document.value

def Reported (outcome : Except PyException Json) : Prop :=
  ∃ message, outcome = .error (.invalidCryptoFileError message)

variable {cipher}

/-! ## One file -/

theorem get_apply_of_untouched {directory : Directory} {event : FileEvent floats} {path : String}
    (untouched : event.touched ≠ some path) :
    Dict.get (event.apply cipher directory) path = Dict.get directory path := by
  cases event with
  | save other key1 purpose nonce data written =>
    cases encrypted : CodePoints.encrypt cipher key1 purpose nonce (plaintext floats data.value) with
    | error exception => simp only [FileEvent.apply, encrypted]
    | ok blob =>
      cases written with
      | false => simp only [FileEvent.apply, encrypted]
      | true =>
        simp only [FileEvent.apply, encrypted]
        refine Dict.get_set_ne _ _ fun same => untouched ?_
        obtain ⟨key, derived, _⟩ := bind_eq_ok.mp encrypted
        obtain ⟨info, purposeEncoded, derived⟩ := bind_eq_ok.mp derived
        obtain ⟨secret, keyEncoded, _⟩ := bind_eq_ok.mp derived
        simp [FileEvent.touched, CodePoints.encode_eq_ok purposeEncoded, CodePoints.encode_eq_ok keyEncoded, same]
  | replace other bytes =>
    refine Dict.get_set_ne _ _ fun same => untouched ?_
    rw [same]
    rfl

theorem get_afterRun_of_untouched {directory : Directory} {run : List (FileEvent floats)} {path : String}
    (untouched : ∀ event ∈ run, event.touched ≠ some path) :
    Dict.get (afterRun cipher directory run) path = Dict.get directory path := by
  induction run generalizing directory with
  | nil => rfl
  | cons event rest inductionHypothesis =>
    rw [afterRun, List.foldl_cons]
    exact (inductionHypothesis fun other member => untouched other (List.mem_cons_of_mem _ member)).trans
      (get_apply_of_untouched (untouched event List.mem_cons_self))

/-! ## Any bytes -/

theorem partsOf_cases (blob : Bytes) :
    partsOf blob = .ok ((blob.drop HEADER_SIZE).take NONCE_SIZE, blob.drop (HEADER_SIZE + NONCE_SIZE)) ∨
      ∃ message, partsOf blob = .error (.invalidCryptoFileError message) := by
  rw [partsOf]
  split
  · exact .inr ⟨_, rfl⟩
  split
  · exact .inr ⟨_, rfl⟩
  dsimp only
  split
  · exact .inr ⟨_, rfl⟩
  · exact .inl rfl

/-- Opening bytes that are not forged gives a saved document, or `InvalidCryptoFileError`, or the
key or the purpose has no UTF-8. -/
theorem opened_unforged (apart : KeysApart cipher) {run : List (FileEvent floats)} {key1 purpose : List CodePoint}
    {blob : Bytes} (unforged : Unforged cipher run key1 purpose blob) :
    (∃ data, CodePoints.opened cipher floats key1 purpose blob = .ok data ∧ Saved run key1 purpose data) ∨
      Reported (CodePoints.opened cipher floats key1 purpose blob) ∨
      CodePoints.opened cipher floats key1 purpose blob = .error .unicodeEncodeError ∧
        (encodeText key1 = none ∨ encodeText purpose = none) := by
  rw [CodePoints.opened, CodePoints.decrypt]
  obtain parts | ⟨message, malformed⟩ := partsOf_cases blob
  · rw [parts, ok_bind]
    dsimp only
    obtain ⟨key, associated, derived, bound⟩ | ⟨unencoded, without⟩ := @CodePoints.deriveKey_cases cipher key1 purpose
    · rw [derived, ok_bind, bound, ok_bind, aesGcmDecrypt]
      cases decrypted : cipher.decrypt key ((blob.drop HEADER_SIZE).take NONCE_SIZE)
          (blob.drop (HEADER_SIZE + NONCE_SIZE)) associated with
      | none => exact .inr (.inl ⟨_, rfl⟩)
      | some text =>
        obtain ⟨path, saveKey, savePurpose, saveNonce, data, written, member, sameKey, sameNonce, _, produced⟩ :=
          unforged key associated derived bound (by rw [decrypted]; rfl)
        obtain ⟨rfl, rfl⟩ := apart _ _ _ _ _ derived sameKey
        rw [produced, cipher.decrypt_encrypt] at decrypted
        obtain rfl := Option.some.inj decrypted
        exact .inl ⟨data.value, document_plaintext data.writable, path, saveNonce, data, written, member, rfl⟩
    · rw [unencoded]
      exact .inr (.inr ⟨rfl, without⟩)
  · rw [malformed]
    exact .inr (.inl ⟨message, rfl⟩)

end Runs

/-- Every load of a file that is there returns a document that was saved under the same KEY1
and purpose or raises `InvalidCryptoFileError`, unless KEY1 or the purpose has no UTF-8, and it
returns the last one saved there if the file has not been touched since. -/
theorem load_authentic (cipher : Cipher) (floats : FloatText) (apart : KeysApart cipher) (directory : Directory)
    (run : List (FileEvent floats)) (path : String) (key1 purpose : List CodePoint)
    (present : (Dict.get (afterRun cipher directory run) path).isSome = true)
    (unforged : ∀ blob, Dict.get (afterRun cipher directory run) path = some blob →
      Unforged cipher run key1 purpose blob) :
    ((∃ data, CodePoints.load cipher floats (afterRun cipher directory run) path key1 purpose = .ok data ∧
        Saved run key1 purpose data) ∨
      Reported (CodePoints.load cipher floats (afterRun cipher directory run) path key1 purpose) ∨
      CodePoints.load cipher floats (afterRun cipher directory run) path key1 purpose = .error .unicodeEncodeError ∧
        (encodeText key1 = none ∨ encodeText purpose = none)) ∧
    ((encodeText key1).isSome → (encodeText purpose).isSome →
      ∀ earlier nonce data later, run = earlier ++ .save path key1 purpose nonce data true :: later →
        (∀ event ∈ later, event.touched ≠ some path) →
        CodePoints.load cipher floats (afterRun cipher directory run) path key1 purpose = .ok data.value) := by
  obtain ⟨bytes, found⟩ := Option.isSome_iff_exists.mp present
  constructor
  · rw [CodePoints.load, found]
    exact opened_unforged apart (unforged bytes found)
  · intro keyEncodes purposeEncodes earlier nonce data later shape untouched
    obtain ⟨key, associated, derived, bound⟩ | ⟨_, without⟩ := @CodePoints.deriveKey_cases cipher key1 purpose
    · obtain ⟨blob, encrypted⟩ : ∃ blob,
          CodePoints.encrypt cipher key1 purpose nonce (plaintext floats data.value) = .ok blob :=
        ⟨_, by rw [CodePoints.encrypt, derived, ok_bind, bound, ok_bind]; rfl⟩
      have last : Dict.get (afterRun cipher directory run) path = some blob := by
        rw [shape, afterRun, List.foldl_append, List.foldl_cons]
        refine (get_afterRun_of_untouched untouched).trans ?_
        simp only [FileEvent.apply, encrypted, Dict.get_set_self]
      rw [CodePoints.load, last]
      exact CodePoints.opened_encrypt data.writable encrypted
    · obtain keyless | purposeless := without
      · rw [keyless] at keyEncodes
        cases keyEncodes
      · rw [purposeless] at purposeEncodes
        cases purposeEncodes

/-! ## A cipher that keeps everything readable -/

/-- The bytes, and where they end. -/
def frame (bytes : Bytes) : Bytes := bytes.flatMap (fun byte => [1, byte]) ++ [0]

theorem frame_inj {left right more others : Bytes} (same : frame left ++ more = frame right ++ others) :
    left = right ∧ more = others := by
  induction left generalizing right with
  | nil =>
    cases right with
    | nil => exact ⟨rfl, (List.cons.inj same).2⟩
    | cons byte rest => cases (List.cons.inj same).1
  | cons byte rest inductionHypothesis =>
    cases right with
    | nil => cases (List.cons.inj same).1
    | cons other others =>
      obtain ⟨sameByte, sameRest⟩ := List.cons.inj (List.cons.inj same).2
      obtain ⟨restSame, moreSame⟩ := inductionHypothesis sameRest
      exact ⟨by rw [sameByte, restSame], moreSame⟩

/-- The key, the nonce and the associated data go in front of the text. -/
def sampleCipher : Cipher where
  hkdf := fun secret info => frame secret ++ info
  encrypt := fun key nonce text associated => frame key ++ frame nonce ++ frame associated ++ text
  decrypt := fun key nonce ciphertext associated =>
    ciphertext.dropPrefix? (frame key ++ frame nonce ++ frame associated)
  decrypt_encrypt := by
    intro key nonce text associated
    exact List.dropPrefix?_eq_some_iff.mpr ⟨_, rfl, by simp⟩

theorem sampleCipher_keysApart : KeysApart sampleCipher := by
  have injective : ∀ left right : String, encodeUtf8 left = encodeUtf8 right → left = right := by
    intro left right same
    have decoded := congrArg decodeUtf8 same
    simpa using decoded
  have texts : ∀ {key1 purpose : List CodePoint} {key : Bytes}, CodePoints.deriveKey sampleCipher key1 purpose = .ok key →
      ∃ keyText purposeText, key1 = codePoints keyText ∧ purpose = codePoints purposeText ∧
        key = frame (encodeUtf8 keyText) ++ encodeUtf8 purposeText := by
    intro key1 purpose key derived
    obtain ⟨info, purposeEncoded, derived⟩ := bind_eq_ok.mp derived
    obtain ⟨secret, keyEncoded, derived⟩ := bind_eq_ok.mp derived
    obtain ⟨purposeText, isPurpose, rfl⟩ := encodeText_eq_some.mp (CodePoints.encode_eq_ok purposeEncoded)
    obtain ⟨keyText, isKey, rfl⟩ := encodeText_eq_some.mp (CodePoints.encode_eq_ok keyEncoded)
    cases derived
    exact ⟨keyText, purposeText, isKey, isPurpose, rfl⟩
  intro key1 purpose other otherPurpose key derived otherDerived
  obtain ⟨keyText, purposeText, rfl, rfl, made⟩ := texts derived
  obtain ⟨otherText, otherPurposeText, rfl, rfl, otherMade⟩ := texts otherDerived
  obtain ⟨sameKey, samePurpose⟩ := frame_inj (made.symm.trans otherMade)
  exact ⟨by rw [injective _ _ sameKey], by rw [injective _ _ samePurpose]⟩

def sampleNonce : Nonce := ⟨List.replicate 12 7, rfl⟩

/-- The contents of a `secrets.dta` without secrets. -/
def noSecrets : Document noFloats where
  value := .dict [("secrets", .dict [])]
  writable := ⟨by decide, ⟨by decide, trivial⟩, trivial⟩

/-- Two saves; the attacker has then put the second file in the place of the first. -/
def swappedRun : List (FileEvent noFloats) :=
  [.save "sites.dta" (codePoints "k") (codePoints "sites") sampleNonce noSecrets true,
    .save "secrets.dta" (codePoints "k") (codePoints "secrets") sampleNonce noSecrets true,
    .replace "sites.dta" (blob sampleCipher noFloats "k" "secrets" sampleNonce noSecrets.value)]

theorem get_swappedRun : Dict.get (afterRun sampleCipher [] swappedRun) "secrets.dta" =
    some (blob sampleCipher noFloats "k" "secrets" sampleNonce noSecrets.value) := rfl

theorem unforged_swappedRun : Unforged sampleCipher swappedRun (codePoints "k") (codePoints "secrets")
    (blob sampleCipher noFloats "k" "secrets" sampleNonce noSecrets.value) := by
  intro key associated derived bound _
  refine ⟨"secrets.dta", codePoints "k", codePoints "secrets", sampleNonce, noSecrets, true, by simp [swappedRun],
    derived, rfl, bound, ?_⟩
  cases derived
  cases bound
  rfl

/-- The file that was not touched is loaded. -/
theorem load_authentic_untouched :
    CodePoints.load sampleCipher noFloats (afterRun sampleCipher [] swappedRun) "secrets.dta" (codePoints "k")
      (codePoints "secrets") = .ok (.dict [("secrets", .dict [])]) := by
  refine (load_authentic sampleCipher noFloats sampleCipher_keysApart [] swappedRun "secrets.dta" (codePoints "k")
    (codePoints "secrets") (by rw [get_swappedRun]; rfl) ?_).2 rfl rfl
    [.save "sites.dta" (codePoints "k") (codePoints "sites") sampleNonce noSecrets true] sampleNonce noSecrets _ rfl ?_
  · intro bytes found
    obtain rfl := Option.some.inj (get_swappedRun.symm.trans found)
    exact unforged_swappedRun
  · intro event member
    rw [List.mem_singleton.mp member]
    decide

/-- U+DCFF. -/
def loneSurrogate : List CodePoint := [.surrogate ⟨1279, by decide⟩]

/-- A well-formed file, loaded with a key that has no UTF-8. -/
theorem load_unencodable :
    KeysApart sampleCipher ∧
    (∀ blob, Dict.get (afterRun sampleCipher [] swappedRun) "secrets.dta" = some blob →
      Unforged sampleCipher swappedRun loneSurrogate (codePoints "secrets") blob) ∧
    ¬((∃ data, CodePoints.load sampleCipher noFloats (afterRun sampleCipher [] swappedRun) "secrets.dta" loneSurrogate
          (codePoints "secrets") = .ok data ∧ Saved swappedRun loneSurrogate (codePoints "secrets") data) ∨
      Reported (CodePoints.load sampleCipher noFloats (afterRun sampleCipher [] swappedRun) "secrets.dta" loneSurrogate
        (codePoints "secrets"))) := by
  have raised : CodePoints.load sampleCipher noFloats (afterRun sampleCipher [] swappedRun) "secrets.dta" loneSurrogate
      (codePoints "secrets") = .error .unicodeEncodeError := rfl
  refine ⟨sampleCipher_keysApart, ?_, ?_⟩
  · intro blob _ key associated derived
    cases derived
  · rw [raised]
    rintro (⟨data, impossible, _⟩ | ⟨message, impossible⟩)
    · cases impossible
    · cases impossible

end SecretWeb.Storage
