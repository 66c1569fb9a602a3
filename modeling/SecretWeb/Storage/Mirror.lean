import SecretWeb.Machine.Runs
import SecretWeb.Storage.AtomicWrite
import SecretWeb.Storage.Authenticity

/-! # The plaintext mirror

Data that is no secret is written twice: encrypted, and then in the clear for those who have
no KEY1 yet.  Each of the two files is replaced at once, but not both together, and a later
boot asks for the first one only. -/

namespace SecretWeb.Storage

open SecretWeb.Data SecretWeb.Python SecretWeb.Python.JsonText SecretWeb.Machine

open SecretWeb.CryptoFile (Nonce)

structure MirroredFile where
  encryptedPath : String
  plaintextPath : String
  purpose : String
  different : plaintextPath ≠ encryptedPath
  encryptedNamed : ¬Temporary encryptedPath
  plaintextNamed : ¬Temporary plaintextPath

/-- How far a call of `save_mirrored` has come; `ensuring` if `ensure_mirrored` has made it. -/
inductive Saving (floats : FloatText) where
  | idle
  | sealing (data : Document floats) (ensuring : Bool) (nonce : Nonce) (writing : Writing)
  | copying (data : Document floats) (ensuring : Bool) (writing : Writing)

structure DataDir (floats : FloatText) where
  directory : Directory
  saving : Saving floats

/-- `raise` is an exception out of the call, whose handler may fail to remove the temporary
file; `elsewhere` is a change to some other file. -/
inductive MirrorEvent (floats : FloatText) where
  | ensure (default : Document floats) (nonce : Nonce)
  | save (data : Document floats) (nonce : Nonce)
  | work (step : WriteStep)
  | raise (unlinked : Bool)
  | kill
  | elsewhere (name : String) (bytes : Bytes)

def Writing.temporary : Writing → Option String
  | .opened tmp _ => some tmp
  | .flushed tmp => some tmp
  | .synced tmp => some tmp
  | _ => none

/-- The temporary file that the handler in `atomic_write_bytes` removes. -/
def Saving.temporary {floats : FloatText} : Saving floats → Option String
  | .idle => none
  | .sealing _ _ _ writing => writing.temporary
  | .copying _ _ writing => writing.temporary

section Steps

variable (cipher : Cipher) (floats : FloatText) (key1 : String) (file : MirroredFile)

/-- `json.dumps(data, indent=2).encode("utf-8")`. -/
def mirrorText (data : Json) : Bytes := encodeUtf8 (dumpsIndented floats data)

/-- `load_hosts_json`, on the mirror of any file. -/
def loadHostsJson (directory : Directory) : Except PyException Json :=
  match Dict.get directory file.plaintextPath with
  | none => .error .osError
  | some text => document floats text

variable {floats}

/-- The bytes of the encrypted file. -/
def sealedText (nonce : Nonce) (data : Document floats) : Bytes :=
  blob cipher floats key1 file.purpose nonce data.value

/-- One step; one that is not due changes nothing.  The output is what `ensure_mirrored` returns
or what its load raises. -/
def mirrorStep (dataDir : DataDir floats) : MirrorEvent floats → Option (Except PyException Json) × DataDir floats
  | .ensure default nonce =>
    match dataDir.saving with
    | .idle =>
      if (Dict.get dataDir.directory file.encryptedPath).isSome then
        (some (load cipher floats dataDir.directory file.encryptedPath key1 file.purpose), dataDir)
      else (none, { dataDir with saving := .sealing default true nonce .starting })
    | _ => (none, dataDir)
  | .save data nonce =>
    match dataDir.saving with
    | .idle => (none, { dataDir with saving := .sealing data false nonce .starting })
    | _ => (none, dataDir)
  | .work step =>
    match dataDir.saving with
    | .idle => (none, dataDir)
    | .sealing data ensuring nonce writing =>
      match writing.step file.encryptedPath (sealedText cipher key1 file nonce data) dataDir.directory step with
      | (.replaced, directory) => (none, ⟨directory, .copying data ensuring .starting⟩)
      | (next, directory) => (none, ⟨directory, .sealing data ensuring nonce next⟩)
    -- the encrypted file is in place, and the mirror follows
    | .copying data ensuring writing =>
      match writing.step file.plaintextPath (mirrorText floats data.value) dataDir.directory step with
      | (.replaced, directory) => (if ensuring then some (.ok data.value) else none, ⟨directory, .idle⟩)
      | (next, directory) => (none, ⟨directory, .copying data ensuring next⟩)
  -- the handler of `atomic_write_bytes` removes the temporary file, if it can
  | .raise unlinked =>
    match dataDir.saving.temporary, unlinked with
    | some tmp, true => (none, ⟨Dict.erase dataDir.directory tmp, .idle⟩)
    | _, _ => (none, ⟨dataDir.directory, .idle⟩)
  | .kill => (none, ⟨dataDir.directory, .idle⟩)
  | .elsewhere name bytes =>
    if name = file.encryptedPath ∨ name = file.plaintextPath ∨ name.toList.head? = some '.' then (none, dataDir)
    else (none, { dataDir with directory := Dict.set dataDir.directory name bytes })

abbrev MirrorStep (floats : FloatText) :=
  Transition (DataDir floats) (MirrorEvent floats) (Option (Except PyException Json))

/-- No call ends, killed or raising, when the encrypted file is new and the mirror is not. -/
def Uninterrupted (transition : MirrorStep floats) : Prop :=
  ∀ data ensuring writing, transition.before.saving = .copying data ensuring writing →
    transition.input ≠ .kill ∧ ∀ unlinked, transition.input ≠ .raise unlinked

/-! ## The two files -/

/-- There is no encrypted file, or the mirror is of what it was made from. -/
def Twins (floats : FloatText) (directory : Directory) : Prop :=
  Dict.get directory file.encryptedPath = none ∨
    ∃ (nonce : Nonce) (data : Document floats),
      Dict.get directory file.encryptedPath = some (sealedText cipher key1 file nonce data) ∧
      Dict.get directory file.plaintextPath = some (mirrorText floats data.value)

/-- The invariant, call by call. -/
def InStep (dataDir : DataDir floats) : Prop :=
  match dataDir.saving with
  | .idle => Twins cipher key1 file floats dataDir.directory
  | .sealing data _ nonce writing =>
    Twins cipher key1 file floats dataDir.directory ∧
      writing.Holds (sealedText cipher key1 file nonce data) dataDir.directory ∧ writing ≠ .replaced
  | .copying data _ writing =>
    (∃ nonce, Dict.get dataDir.directory file.encryptedPath = some (sealedText cipher key1 file nonce data)) ∧
      writing.Holds (mirrorText floats data.value) dataDir.directory ∧ writing ≠ .replaced

variable {cipher key1 file}

theorem document_mirrorText (data : Document floats) : document floats (mirrorText floats data.value) = .ok data.value := by
  rw [document, mirrorText, decodeUtf8_encodeUtf8]
  dsimp only
  rw [loads_dumpsIndented data.writable]

theorem loadHostsJson_of_mirror {directory : Directory} {data : Document floats}
    (mirror : Dict.get directory file.plaintextPath = some (mirrorText floats data.value)) :
    loadHostsJson floats file directory = .ok data.value := by
  rw [loadHostsJson, mirror]
  exact document_mirrorText data

/-- Both files as they were, the two agree as they did. -/
theorem Twins.congr {directory after : Directory} (twins : Twins cipher key1 file floats directory)
    (sealed : Dict.get after file.encryptedPath = Dict.get directory file.encryptedPath)
    (mirror : Dict.get after file.plaintextPath = Dict.get directory file.plaintextPath) :
    Twins cipher key1 file floats after := by
  rw [Twins, sealed, mirror]
  exact twins

theorem Writing.Holds.temporary {writing : Writing} {data : Bytes} {directory : Directory} {tmp : String}
    (holds : writing.Holds data directory) (named : writing.temporary = some tmp) : Temporary tmp := by
  cases writing with
  | starting => cases named
  | opened tmp count =>
    cases named
    exact holds.1
  | flushed tmp =>
    cases named
    exact holds.1
  | synced tmp =>
    cases named
    exact holds.1
  | replaced => cases named

/-- A temporary file more or less is nothing to either file. -/
theorem Twins.erase {directory : Directory} {tmp : String} (twins : Twins cipher key1 file floats directory)
    (temporary : Temporary tmp) : Twins cipher key1 file floats (Dict.erase directory tmp) := by
  have kept : ∀ name, ¬Temporary name → Dict.get (Dict.erase directory tmp) name = Dict.get directory name := by
    intro name named
    rw [Dict.get_erase, if_neg]
    rintro rfl
    exact named temporary
  exact twins.congr (kept _ file.encryptedNamed) (kept _ file.plaintextNamed)

/-! ## Steps -/

/-- A step of the write of the encrypted file. -/
theorem inStep_sealing {directory : Directory} {data : Document floats} {ensuring : Bool} {nonce : Nonce}
    {writing : Writing} (inStep : InStep cipher key1 file ⟨directory, .sealing data ensuring nonce writing⟩)
    (step : WriteStep) :
    (mirrorStep cipher key1 file ⟨directory, .sealing data ensuring nonce writing⟩ (.work step)).1 = none ∧
      InStep cipher key1 file
        (mirrorStep cipher key1 file ⟨directory, .sealing data ensuring nonce writing⟩ (.work step)).2 := by
  obtain ⟨twins, holds, going⟩ := inStep
  have stepped := Writing.step_stepped file.encryptedNamed holds going step
  rw [mirrorStep]
  dsimp only
  cases outcome : writing.step file.encryptedPath (sealedText cipher key1 file nonce data) directory step with
  | mk next after =>
    rw [outcome] at stepped
    cases stepped.path with
    | inl finished =>
      obtain ⟨done, written⟩ := finished
      dsimp only at done written
      subst done
      exact ⟨rfl, ⟨nonce, written⟩, trivial, by simp⟩
    | inr ongoing =>
      have kept := twins.congr ongoing.2 (stepped.others _ file.plaintextNamed file.different)
      have continues : InStep cipher key1 file ⟨after, .sealing data ensuring nonce next⟩ :=
        ⟨kept, stepped.holds, ongoing.1⟩
      cases next with
      | replaced => exact absurd rfl ongoing.1
      | _ => exact ⟨rfl, continues⟩

/-- A step of the write of the mirror. -/
theorem inStep_copying {directory : Directory} {data : Document floats} {ensuring : Bool} {writing : Writing}
    (inStep : InStep cipher key1 file ⟨directory, .copying data ensuring writing⟩) (step : WriteStep) :
    let after := mirrorStep cipher key1 file ⟨directory, .copying data ensuring writing⟩ (.work step)
    InStep cipher key1 file after.2 ∧
      ∀ returned, after.1 = some (.ok returned) → loadHostsJson floats file after.2.directory = .ok returned := by
  obtain ⟨⟨nonce, sealed⟩, holds, going⟩ := inStep
  have stepped := Writing.step_stepped file.plaintextNamed holds going step
  rw [mirrorStep]
  dsimp only
  have others := stepped.others _ file.encryptedNamed file.different.symm
  cases outcome : writing.step file.plaintextPath (mirrorText floats data.value) directory step with
  | mk next after =>
    rw [outcome] at stepped others
    dsimp only at others
    -- with the mirror in place the two say the same again
    cases stepped.path with
    | inl finished =>
      obtain ⟨done, written⟩ := finished
      dsimp only at done written
      subst done
      refine ⟨.inr ⟨nonce, data, others.trans sealed, written⟩, fun returned result => ?_⟩
      cases ensuring with
      | false => cases result
      | true =>
        cases result
        exact loadHostsJson_of_mirror written
    | inr ongoing =>
      have continues : InStep cipher key1 file ⟨after, .copying data ensuring next⟩ :=
        ⟨⟨nonce, others.trans sealed⟩, stepped.holds, ongoing.1⟩
      cases next with
      | replaced => exact absurd rfl ongoing.1
      | _ => exact ⟨continues, fun returned result => by cases result⟩

/-- Another file has been written. -/
theorem InStep.elsewhere {dataDir : DataDir floats} (inStep : InStep cipher key1 file dataDir) {name : String}
    (permanent : ¬Temporary name) (notSealed : file.encryptedPath ≠ name) (notMirror : file.plaintextPath ≠ name)
    (bytes : Bytes) : InStep cipher key1 file { dataDir with directory := Dict.set dataDir.directory name bytes } := by
  obtain ⟨directory, saving⟩ := dataDir
  have sealedKept := Dict.get_set_ne directory bytes notSealed
  have mirrorKept := Dict.get_set_ne directory bytes notMirror
  cases saving with
  | idle => exact Twins.congr inStep sealedKept mirrorKept
  | sealing data ensuring nonce writing =>
    exact ⟨inStep.1.congr sealedKept mirrorKept, inStep.2.1.set_other permanent bytes, inStep.2.2⟩
  | copying data ensuring writing =>
    obtain ⟨⟨nonce, sealed⟩, holds, going⟩ := inStep
    exact ⟨⟨nonce, sealedKept.trans sealed⟩, holds.set_other permanent bytes, going⟩

/-- An existing file is opened to what the mirror shows. -/
theorem Twins.load {directory : Directory} (twins : Twins cipher key1 file floats directory)
    (present : (Dict.get directory file.encryptedPath).isSome = true) {returned : Json}
    (loaded : Storage.load cipher floats directory file.encryptedPath key1 file.purpose = .ok returned) :
    loadHostsJson floats file directory = .ok returned := by
  cases twins with
  | inl absent =>
    rw [absent] at present
    cases present
  | inr there =>
    obtain ⟨nonce, data, sealed, mirror⟩ := there
    rw [Storage.load, sealed] at loaded
    have same := (opened_blob key1 file.purpose nonce data.writable).symm.trans loaded
    cases same
    exact loadHostsJson_of_mirror mirror

/-- The step lemma. -/
theorem mirrorStep_inStep {dataDir : DataDir floats} (inStep : InStep cipher key1 file dataDir)
    (event : MirrorEvent floats)
    (uninterrupted : ∀ data ensuring writing, dataDir.saving = .copying data ensuring writing →
      event ≠ .kill ∧ ∀ unlinked, event ≠ .raise unlinked) :
    let after := mirrorStep cipher key1 file dataDir event
    InStep cipher key1 file after.2 ∧
      ∀ returned, after.1 = some (.ok returned) → loadHostsJson floats file after.2.directory = .ok returned := by
  obtain ⟨directory, saving⟩ := dataDir
  have quiet : ∀ returned, (none : Option (Except PyException Json)) = some (.ok returned) →
      loadHostsJson floats file directory = .ok returned := fun _ impossible => by cases impossible
  cases event with
  | ensure default nonce =>
    cases saving with
    | idle =>
      rw [mirrorStep]
      dsimp only
      by_cases present : (Dict.get directory file.encryptedPath).isSome = true
      · rw [if_pos present]
        exact ⟨inStep, fun returned result => Twins.load inStep present (Option.some.inj result)⟩
      · rw [if_neg present]
        exact ⟨⟨inStep, trivial, by simp⟩, quiet⟩
    | _ => exact ⟨inStep, quiet⟩
  | save data nonce =>
    cases saving with
    | idle => exact ⟨⟨inStep, trivial, by simp⟩, quiet⟩
    | _ => exact ⟨inStep, quiet⟩
  | work step =>
    cases saving with
    | idle => exact ⟨inStep, quiet⟩
    | sealing data ensuring nonce writing =>
      obtain ⟨nothing, continues⟩ := inStep_sealing inStep step
      refine ⟨continues, fun returned result => ?_⟩
      rw [nothing] at result
      cases result
    | copying data ensuring writing => exact inStep_copying inStep step
  | raise unlinked =>
    cases saving with
    | idle => exact ⟨inStep, fun _ impossible => by cases impossible⟩
    | copying data ensuring writing => exact absurd rfl ((uninterrupted data ensuring writing rfl).2 unlinked)
    | sealing data ensuring nonce writing =>
      cases named : writing.temporary with
      | none =>
        have stopped : mirrorStep cipher key1 file ⟨directory, .sealing data ensuring nonce writing⟩ (.raise unlinked) =
            (none, ⟨directory, .idle⟩) := by
          simp only [mirrorStep, Saving.temporary, named]
        rw [stopped]
        exact ⟨inStep.1, quiet⟩
      | some tmp =>
        cases unlinked with
        | false =>
          have stopped : mirrorStep cipher key1 file ⟨directory, .sealing data ensuring nonce writing⟩ (.raise false) =
              (none, ⟨directory, .idle⟩) := by
            simp only [mirrorStep, Saving.temporary, named]
          rw [stopped]
          exact ⟨inStep.1, quiet⟩
        | true =>
          have stopped : mirrorStep cipher key1 file ⟨directory, .sealing data ensuring nonce writing⟩ (.raise true) =
              (none, ⟨Dict.erase directory tmp, .idle⟩) := by
            simp only [mirrorStep, Saving.temporary, named]
          rw [stopped]
          exact ⟨inStep.1.erase (inStep.2.1.temporary named), fun _ impossible => by cases impossible⟩
  | kill =>
    cases saving with
    | idle => exact ⟨inStep, quiet⟩
    | copying data ensuring writing => exact absurd rfl (uninterrupted data ensuring writing rfl).1
    | sealing data ensuring nonce writing => exact ⟨inStep.1, quiet⟩
  | elsewhere name bytes =>
    rw [mirrorStep]
    dsimp only
    split
    · exact ⟨inStep, quiet⟩
    · rename_i other
      rw [not_or, not_or] at other
      exact ⟨inStep.elsewhere (not_temporary other.2.2) (Ne.symm other.1) (Ne.symm other.2.1) bytes,
        fun _ impossible => by cases impossible⟩

end Steps

/-- From a directory that holds neither file, whatever is called, and wherever calls are cut off
except between the two replacements: what `ensure_mirrored` returns is what the mirror shows. -/
theorem mirror_matches (cipher : Cipher) (floats : FloatText) (key1 : String) (file : MirroredFile)
    (directory : Directory)
    (neither : Dict.get directory file.encryptedPath = none ∧ Dict.get directory file.plaintextPath = none)
    (events : List (MirrorEvent floats))
    (uninterrupted : ∀ transition ∈ transitions (mirrorStep cipher key1 file) ⟨directory, .idle⟩ events,
      Uninterrupted transition) :
    ∀ transition ∈ transitions (mirrorStep cipher key1 file) ⟨directory, .idle⟩ events,
      ∀ returned, transition.output = some (.ok returned) →
        loadHostsJson floats file transition.after.directory = .ok returned := by
  have start : InStep cipher key1 file (⟨directory, .idle⟩ : DataDir floats) := .inl neither.1
  have invariant := (@invariant_of_steps _ _ _ (mirrorStep cipher key1 file) (InStep cipher key1 file) Uninterrupted
    _ events (fun transition allowed inStep stepped => by
      have after := (mirrorStep_inStep inStep transition.input allowed).1
      rwa [stepped] at after) start uninterrupted).1
  intro transition member returned result
  have shown := (mirrorStep_inStep (invariant transition member).1 transition.input (uninterrupted transition member)).2
  rw [step_of_mem_transitions member] at shown
  exact shown returned result

/-! ## `hosts.dta` and `hosts.json` -/

def hostsFile : MirroredFile where
  encryptedPath := "hosts.dta"
  plaintextPath := "hosts.json"
  purpose := "secretweb-hosts-v1"
  different := by decide
  encryptedNamed := not_temporary (by decide)
  plaintextNamed := not_temporary (by decide)

def noHosts : Document noFloats where
  value := .dict [("hosts", .dict [])]
  writable := ⟨by decide, ⟨by decide, trivial⟩, trivial⟩

/-- One write from the first step to the last. -/
def wholeWrite (unique : String) : List (MirrorEvent noFloats) :=
  [.work (.mkstemp unique), .work .flush, .work .fsync, .work .replace]

/-- A call up to where the encrypted file is about to be replaced. -/
def cutCall : List (MirrorEvent noFloats) :=
  [.ensure noHosts sampleNonce, .work (.mkstemp "a"), .work .flush, .work .fsync]

def wholeCall : List (MirrorEvent noFloats) := .ensure noHosts sampleNonce :: (wholeWrite "b" ++ wholeWrite "c")

/-- Killed there, and called again. -/
theorem mirror_matches_created :
    loadHostsJson noFloats hostsFile (run (mirrorStep sampleCipher "k" hostsFile) ⟨[], .idle⟩
      (cutCall ++ .kill :: wholeCall)).directory = .ok noHosts.value := by
  refine mirror_matches sampleCipher noFloats "k" hostsFile [] ⟨rfl, rfl⟩ (cutCall ++ .kill :: wholeCall) ?_ _
    (List.mem_of_getElem? (i := 13) rfl) _ rfl
  have calm : ∀ event ∈ cutCall ++ wholeCall, event ≠ .kill ∧ ∀ unlinked, event ≠ .raise unlinked := by
    simp [cutCall, wholeCall, wholeWrite]
  intro transition member data ensuring writing copying
  rw [transitions_append] at member
  rcases List.mem_append.mp member with first | later
  · exact calm _ (List.mem_append_left _ (input_of_mem_transitions first))
  · rcases List.mem_cons.mp later with rfl | rest
    · cases copying
    · exact calm _ (List.mem_append_right _ (input_of_mem_transitions rest))

/-- Killed after the encrypted file has been replaced, and called again: the document is returned,
and there is no mirror. -/
theorem mirror_missing :
    let events : List (MirrorEvent noFloats) :=
      .ensure noHosts sampleNonce :: (wholeWrite "a" ++ [.kill, .ensure noHosts sampleNonce])
    ((transitions (mirrorStep sampleCipher "k" hostsFile) ⟨[], .idle⟩ events).map Transition.output).getLast? =
        some (some (.ok noHosts.value)) ∧
      loadHostsJson noFloats hostsFile (run (mirrorStep sampleCipher "k" hostsFile) ⟨[], .idle⟩ events).directory =
        .error .osError := by
  have loaded : load sampleCipher noFloats [("hosts.dta", sealedText sampleCipher "k" hostsFile sampleNonce noHosts)]
      "hosts.dta" "k" "secretweb-hosts-v1" = .ok noHosts.value :=
    opened_blob "k" "secretweb-hosts-v1" sampleNonce noHosts.writable
  exact ⟨congrArg (fun result => some (some result)) loaded, rfl⟩

end SecretWeb.Storage
