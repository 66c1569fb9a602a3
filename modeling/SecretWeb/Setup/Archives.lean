import SecretWeb.Setup.Reruns
import SecretWeb.Storage.Mirror

/-! # Archives are never lost

Setup looks for a name that is not taken and renames an old data file to it, one file after the
other, before it writes new ones under the old names.  It may end between any two of its
system calls, and be run again. -/

namespace SecretWeb.Setup

open SecretWeb.Data SecretWeb.Python SecretWeb.Python.JsonText SecretWeb.Server SecretWeb.Machine SecretWeb.Storage

open SecretWeb.CryptoFile (Nonce)

/-! ## The steps -/

/-- How far a run has come; `left` is what it has still to archive or to write. -/
inductive ResetPhase where
  | idle
  | archiving (run : SetupRun) (left : List String)
  | searching (run : SetupRun) (name : String) (counter : Nat) (left : List String)
  | moving (run : SetupRun) (name : String) (counter : Nat) (left : List String)
  | collecting (run : SetupRun)
  | saving (path : String) (data : Bytes) (left : List (String × Bytes)) (writing : Writing)

/-- The data directory, and the run that is going on. -/
structure Reset where
  directory : Storage.Directory
  phase : ResetPhase

/-- `raise` is an exception, whose handler may fail to remove the temporary file; `elsewhere`
is a change to some other file. -/
inductive ResetEvent where
  | enter (run : SetupRun)
  | proceed
  | write (step : WriteStep)
  | raise (unlinked : Bool)
  | kill
  | elsewhere (name : String) (bytes : Bytes)

/-- A name that an earlier run may have archived the file under. -/
def ArchiveOf (file name : String) : Prop := (file ++ ".old.").toList <+: name.toList

instance (file name : String) : Decidable (ArchiveOf file name) := inferInstanceAs (Decidable (_ <+: _))

/-- A data file or an archive. -/
def Guarded (name : String) : Prop := name ∈ DATA_FILENAMES ∨ ∃ file ∈ DATA_FILENAMES, ArchiveOf file name

instance (name : String) : Decidable (Guarded name) :=
  inferInstanceAs (Decidable (name ∈ DATA_FILENAMES ∨ ∃ file ∈ DATA_FILENAMES, ArchiveOf file name))

/-- `_existing_data_files`. -/
def existingFiles (directory : Storage.Directory) : List String :=
  DATA_FILENAMES.filter fun name => (Dict.get directory name).isSome

section Steps

variable (cipher : Cipher) (floats : FloatText)

/-- What the two calls of `save_mirrored` and the one of `save` write, in their order. -/
def writesOf (key1 : String) (nonce : (path : String) → Nonce) (hostsData : Json) : List (String × Bytes) :=
  let sitesData := .dict [("sites", .dict [])]
  let secretsData := .dict [("secrets", .dict [])]
  [(HOSTS_FILENAME, blob cipher floats key1 HOSTS_FILE_PURPOSE (nonce HOSTS_FILENAME) hostsData),
    (HOSTS_PLAINTEXT_FILENAME, mirrorText floats hostsData),
    (SITES_FILENAME, blob cipher floats key1 SITES_FILE_PURPOSE (nonce SITES_FILENAME) sitesData),
    (SITES_PLAINTEXT_FILENAME, mirrorText floats sitesData),
    (SECRETS_FILENAME, blob cipher floats key1 SECRETS_FILE_PURPOSE (nonce SECRETS_FILENAME) secretsData)]

def SetupRun.writes (run : SetupRun) (ownName : String) : List (String × Bytes) :=
  writesOf cipher floats run.key1 run.nonce (buildHostsData run.hosts ownName run.ownPort run.now)

def nextWrite : List (String × Bytes) → ResetPhase
  | [] => .idle
  | (path, data) :: left => .saving path data left .starting

/-- The next step of `main`, outside of `atomic_write_bytes`. -/
def Reset.proceed (reset : Reset) : Reset :=
  match reset.phase with
  | .archiving run [] => { reset with phase := .collecting run }
  | .archiving run (name :: left) => { reset with phase := .searching run name 0 left }
  | .searching run name counter left =>
    -- `while os.path.exists(candidate)`
    if (Dict.get reset.directory (archiveCandidate name run.date counter)).isSome then
      { reset with phase := .searching run name (counter + 1) left }
    else { reset with phase := .moving run name counter left }
  | .moving run name counter left =>
    match Dict.get reset.directory name with
    -- `os.rename` raises
    | none => { reset with phase := .idle }
    | some bytes =>
      { directory := Dict.set (Dict.erase reset.directory name) (archiveCandidate name run.date counter) bytes
        phase := .archiving run left }
  | .collecting run =>
    match matchOwnHost run.hosts run.ownHostname with
    | .ok ownName => { reset with phase := nextWrite (run.writes cipher floats ownName) }
    -- no entry of the list is this host: `main` exits
    | .error _ => { reset with phase := .idle }
  | _ => reset

/-- One step; one that is not due changes nothing. -/
def resetStep (reset : Reset) : ResetEvent → Unit × Reset
  | .enter run =>
    match reset.phase with
    | .idle => ((), { reset with phase := .archiving run (existingFiles reset.directory) })
    | _ => ((), reset)
  | .proceed => ((), reset.proceed cipher floats)
  | .write step =>
    match reset.phase with
    | .saving path data left writing =>
      match writing.step path data reset.directory step with
      | (.replaced, directory) => ((), ⟨directory, nextWrite left⟩)
      | (next, directory) => ((), ⟨directory, .saving path data left next⟩)
    | _ => ((), reset)
  | .raise unlinked =>
    -- the handler of `atomic_write_bytes` removes the temporary file, if it can
    match reset.phase, unlinked with
    | .saving _ _ _ writing, true =>
      match writing.temporary with
      | some tmp => ((), ⟨Dict.erase reset.directory tmp, .idle⟩)
      | none => ((), { reset with phase := .idle })
    | _, _ => ((), { reset with phase := .idle })
  | .kill => ((), { reset with phase := .idle })
  | .elsewhere name bytes =>
    -- nobody else writes data files, archives or temporary files
    if Guarded name ∨ name.toList.head? = some '.' then ((), reset)
    else ((), { reset with directory := Dict.set reset.directory name bytes })

variable {cipher floats}

/-! ## Names -/

theorem archiveOf_candidate (file suffix : String) (counter : Nat) :
    ArchiveOf file (archiveCandidate file suffix counter) := by
  cases counter with
  | zero => exact ⟨suffix.toList, by simp [archiveCandidate]⟩
  | succ counter => exact ⟨suffix.toList ++ ("-" ++ toString (counter + 1)).toList, by simp [archiveCandidate]⟩

theorem not_data_of_archive {file name : String} (known : file ∈ DATA_FILENAMES) (archive : ArchiveOf file name) :
    name ∉ DATA_FILENAMES := by
  have all : ∀ file ∈ DATA_FILENAMES, ∀ name ∈ DATA_FILENAMES, ¬ArchiveOf file name := by decide
  exact fun data => all file known name data archive

/-- No data file and no archive is a temporary file. -/
theorem Guarded.not_temporary {name : String} (guarded : Guarded name) : ¬Temporary name := by
  apply Storage.not_temporary
  rcases guarded with data | ⟨file, known, rest, archive⟩
  · have all : ∀ name ∈ DATA_FILENAMES, name.toList.head? ≠ some '.' := by decide
    exact all name data
  · have all : ∀ file ∈ DATA_FILENAMES, (file ++ ".old.").toList.head?.getD '.' ≠ '.' := by decide
    have undotted := all file known
    rw [← archive, List.head?_append]
    cases head : (file ++ ".old.").toList.head? with
    | none =>
      rw [head] at undotted
      exact absurd rfl undotted
    | some first =>
      rw [head] at undotted
      exact fun dotted => undotted (Option.some.inj dotted)

/-! ## What a step does to the files -/

/-- All data files and archives are as they were. -/
def Unchanged (before after : Storage.Directory) : Prop :=
  ∀ name content, Guarded name → Dict.get before name = some content → Dict.get after name = some content

/-- Or one data file has become an archive, under a name that was free. -/
structure Archived (before after : Storage.Directory) (name archive : String) : Prop where
  data : name ∈ DATA_FILENAMES
  named : ArchiveOf name archive
  free : Dict.get before archive = none
  moved : ∀ content, Dict.get before name = some content → Dict.get after archive = some content
  others : ∀ other content, Guarded other → other ≠ name → Dict.get before other = some content →
    Dict.get after other = some content

/-- Every file has a place of its own, its old one or one that an archive of it has. -/
structure Places (place : String → String) (before after : Storage.Directory) : Prop where
  named : ∀ name, Guarded name → place name = name ∨ name ∈ DATA_FILENAMES ∧ ArchiveOf name (place name)
  content : ∀ name content, Guarded name → Dict.get before name = some content →
    Dict.get after (place name) = some content
  apart : ∀ left right, Guarded left → Guarded right → Dict.get before left ≠ none → Dict.get before right ≠ none →
    place left = place right → left = right

/-- Nothing that was there is lost. -/
def Kept (before after : Storage.Directory) : Prop := ∃ place, Places place before after

theorem Unchanged.kept {before after : Storage.Directory} (unchanged : Unchanged before after) : Kept before after :=
  ⟨id, fun _ _ => .inl rfl, unchanged, fun _ _ _ _ _ _ same => same⟩

/-- Where a file is after one of them has been renamed. -/
def renamed (name archive other : String) : String := if other = name then archive else other

@[simp] theorem renamed_self (name archive : String) : renamed name archive name = archive := if_pos rfl

theorem renamed_other {name other : String} (archive : String) (different : other ≠ name) :
    renamed name archive other = other := if_neg different

theorem Archived.kept {before after : Storage.Directory} {name archive : String}
    (archived : Archived before after name archive) : Kept before after := by
  refine ⟨renamed name archive, fun other _ => ?_, fun other content guarded there => ?_, ?_⟩
  · by_cases moved : other = name
    · subst moved
      rw [renamed_self]
      exact .inr ⟨archived.data, archived.named⟩
    · exact .inl (renamed_other archive moved)
  · by_cases moved : other = name
    · subst moved
      rw [renamed_self]
      exact archived.moved content there
    · rw [renamed_other archive moved]
      exact archived.others other content guarded moved there
  · -- the new name was free, so no other file has it
    have apart : ∀ other, Dict.get before other ≠ none → archive ≠ other := by
      rintro other there rfl
      exact there archived.free
    intro left right _ _ leftThere rightThere same
    by_cases leftMoved : left = name
    · by_cases rightMoved : right = name
      · rw [leftMoved, rightMoved]
      · rw [leftMoved, renamed_self, renamed_other archive rightMoved] at same
        exact absurd same (apart right rightThere)
    · by_cases rightMoved : right = name
      · rw [rightMoved, renamed_self, renamed_other archive leftMoved] at same
        exact absurd same.symm (apart left leftThere)
      · rwa [renamed_other archive leftMoved, renamed_other archive rightMoved] at same

theorem Kept.refl (directory : Storage.Directory) : Kept directory directory :=
  Unchanged.kept fun _ _ _ there => there

theorem Places.guarded {place : String → String} {before after : Storage.Directory}
    (places : Places place before after) {name : String} (guarded : Guarded name) : Guarded (place name) := by
  rcases places.named name guarded with same | ⟨data, archive⟩
  · rwa [same]
  · exact .inr ⟨name, data, archive⟩

theorem Places.there {place : String → String} {before after : Storage.Directory}
    (places : Places place before after) {name : String} (guarded : Guarded name)
    (there : Dict.get before name ≠ none) : Dict.get after (place name) ≠ none := by
  obtain ⟨content, found⟩ := Option.ne_none_iff_exists'.mp there
  rw [places.content name content guarded found]
  exact Option.some_ne_none content

/-- An archive stays where it is, so a file moves no more than once. -/
theorem Places.comp {place next : String → String} {first second third : Storage.Directory}
    (before : Places place first second) (after : Places next second third) : Places (next ∘ place) first third where
  named := by
    intro name guarded
    rw [Function.comp_apply]
    rcases before.named name guarded with same | ⟨data, archive⟩
    · rw [same]
      exact after.named name guarded
    -- an archive is no data file, so it is not renamed again
    · rcases after.named (place name) (before.guarded guarded) with still | ⟨again, _⟩
      · rw [still]
        exact .inr ⟨data, archive⟩
      · exact absurd again (not_data_of_archive data archive)
  content := by
    intro name content guarded there
    exact after.content _ content (before.guarded guarded) (before.content name content guarded there)
  apart := by
    intro left right leftGuarded rightGuarded leftThere rightThere same
    have placed := after.apart _ _ (before.guarded leftGuarded) (before.guarded rightGuarded)
      (before.there leftGuarded leftThere) (before.there rightGuarded rightThere) same
    exact before.apart left right leftGuarded rightGuarded leftThere rightThere placed

theorem Kept.trans {first second third : Storage.Directory} (before : Kept first second) (after : Kept second third) :
    Kept first third := by
  obtain ⟨place, places⟩ := before
  obtain ⟨next, nextPlaces⟩ := after
  exact ⟨next ∘ place, places.comp nextPlaces⟩

/-! ## What is out of the way -/

def Absent (directory : Storage.Directory) (names : List String) : Prop := ∀ name ∈ names, Dict.get directory name = none

/-- The data files that are not among these. -/
def AbsentBut (directory : Storage.Directory) (left : List String) : Prop :=
  ∀ name ∈ DATA_FILENAMES, name ∉ left → Dict.get directory name = none

/-- The invariant, phase by phase: what is written next is not there. -/
def Cleared (reset : Reset) : Prop :=
  match reset.phase with
  | .idle => True
  | .archiving _ left => left ⊆ DATA_FILENAMES ∧ AbsentBut reset.directory left
  | .searching _ name _ left => name :: left ⊆ DATA_FILENAMES ∧ AbsentBut reset.directory (name :: left)
  | .moving run name counter left => name :: left ⊆ DATA_FILENAMES ∧ AbsentBut reset.directory (name :: left) ∧
      Dict.get reset.directory (archiveCandidate name run.date counter) = none
  | .collecting _ => Absent reset.directory DATA_FILENAMES
  | .saving path data left writing => path :: left.map Prod.fst ⊆ DATA_FILENAMES ∧
      (path :: left.map Prod.fst).Nodup ∧ Absent reset.directory (path :: left.map Prod.fst) ∧
      writing.Holds data reset.directory ∧ writing ≠ .replaced

/-- The rename is the one step that moves a file, and overwrites none. -/
def Safe (before after : Reset) : Prop :=
  Unchanged before.directory after.directory ∨
    ∃ run name counter left, before.phase = .moving run name counter left ∧
      Archived before.directory after.directory name (archiveCandidate name run.date counter)

theorem cleared_nextWrite {directory : Storage.Directory} {left : List (String × Bytes)}
    (known : left.map Prod.fst ⊆ DATA_FILENAMES) (distinct : (left.map Prod.fst).Nodup)
    (absent : Absent directory (left.map Prod.fst)) : Cleared ⟨directory, nextWrite left⟩ := by
  cases left with
  | nil => trivial
  | cons first rest => exact ⟨known, distinct, absent, trivial, by simp⟩

theorem safe_of_same {before after : Reset} (same : after.directory = before.directory) : Safe before after := by
  refine .inl fun name content _ there => ?_
  rwa [same]

/-- The names of the five writes. -/
theorem fst_writes (run : SetupRun) (ownName : String) :
    (run.writes cipher floats ownName).map Prod.fst = DATA_FILENAMES := rfl

theorem cleared_moving {directory : Storage.Directory} {run : SetupRun} {name : String} {counter : Nat}
    {left : List String} (cleared : Cleared ⟨directory, .moving run name counter left⟩) {bytes : Bytes}
    (found : Dict.get directory name = some bytes) :
    let after := Dict.set (Dict.erase directory name) (archiveCandidate name run.date counter) bytes
    Cleared ⟨after, .archiving run left⟩ ∧
      Archived directory after name (archiveCandidate name run.date counter) := by
  obtain ⟨known, absent, free⟩ := cleared
  have data : name ∈ DATA_FILENAMES := known List.mem_cons_self
  have archive := archiveOf_candidate name run.date counter
  have kept : ∀ other, other ≠ name → other ≠ archiveCandidate name run.date counter →
      Dict.get (Dict.set (Dict.erase directory name) (archiveCandidate name run.date counter) bytes) other =
        Dict.get directory other := by
    intro other different apart
    rw [Dict.get_set_ne _ _ apart, Dict.get_erase, if_neg different]
  refine ⟨⟨fun other member => known (List.mem_cons_of_mem _ member), fun other otherData finished => ?_⟩, ?_⟩
  · have apart : other ≠ archiveCandidate name run.date counter := by
      rintro rfl
      exact not_data_of_archive data archive otherData
    by_cases same : other = name
    · rw [Dict.get_set_ne _ _ apart, Dict.get_erase, if_pos same]
    · rw [kept other same apart]
      exact absent other otherData (List.not_mem_cons_of_ne_of_not_mem same finished)
  · refine ⟨data, archive, free, fun content there => ?_, fun other content _ different there => ?_⟩
    · rw [Dict.get_set_self, ← found, there]
    · have apart : other ≠ archiveCandidate name run.date counter := by
        rintro rfl
        rw [free] at there
        cases there
      rw [kept other different apart, there]

/-- The step lemma, for the steps outside of a write. -/
theorem Cleared.proceed {reset : Reset} (cleared : Cleared reset) :
    Cleared (reset.proceed cipher floats) ∧ Safe reset (reset.proceed cipher floats) := by
  obtain ⟨directory, phase⟩ := reset
  cases phase with
  | idle => exact ⟨trivial, safe_of_same rfl⟩
  | archiving run left =>
    cases left with
    | nil => exact ⟨fun name data => cleared.2 name data List.not_mem_nil, safe_of_same rfl⟩
    | cons name left => exact ⟨cleared, safe_of_same rfl⟩
  | searching run name counter left =>
    unfold Reset.proceed
    dsimp only
    split
    · exact ⟨cleared, safe_of_same rfl⟩
    · rename_i free
      exact ⟨⟨cleared.1, cleared.2, Option.not_isSome_iff_eq_none.mp free⟩, safe_of_same rfl⟩
  | moving run name counter left =>
    unfold Reset.proceed
    dsimp only
    cases found : Dict.get directory name with
    | none => exact ⟨trivial, safe_of_same rfl⟩
    | some bytes =>
      obtain ⟨after, archived⟩ := cleared_moving cleared found
      exact ⟨after, .inr ⟨run, name, counter, left, rfl, archived⟩⟩
  | collecting run =>
    unfold Reset.proceed
    dsimp only
    split
    · rename_i ownName matched
      refine ⟨cleared_nextWrite ?_ ?_ ?_, safe_of_same rfl⟩
      · rw [fst_writes]
        exact List.Subset.refl _
      · rw [fst_writes]
        decide
      · rw [fst_writes]
        exact cleared
    · exact ⟨trivial, safe_of_same rfl⟩
  | saving path data left writing => exact ⟨cleared, safe_of_same rfl⟩

/-- A step of a write: the file it replaces was not there. -/
theorem Cleared.write {directory : Storage.Directory} {path : String} {data : Bytes} {left : List (String × Bytes)}
    {writing : Writing} (cleared : Cleared ⟨directory, .saving path data left writing⟩) (step : WriteStep) :
    let after := (resetStep cipher floats ⟨directory, .saving path data left writing⟩ (.write step)).2
    Cleared after ∧ Safe ⟨directory, .saving path data left writing⟩ after := by
  obtain ⟨known, distinct, absent, holds, going⟩ := cleared
  have guarded : ∀ name ∈ DATA_FILENAMES, Guarded name := fun name member => .inl member
  have pathData : path ∈ DATA_FILENAMES := known List.mem_cons_self
  have stepped := Writing.step_stepped (guarded path pathData).not_temporary holds going step
  have pathAbsent : Dict.get directory path = none := absent path List.mem_cons_self
  have unchanged : Unchanged directory (writing.step path data directory step).2 := by
    intro name content nameGuarded there
    have different : name ≠ path := by
      rintro rfl
      rw [pathAbsent] at there
      cases there
    rw [stepped.others name nameGuarded.not_temporary different, there]
  unfold resetStep
  dsimp only
  cases outcome : writing.step path data directory step with
  | mk next after =>
    rw [outcome] at stepped unchanged
    have others : Absent after (left.map Prod.fst) := by
      intro name member
      have nameData := known (List.mem_cons_of_mem _ member)
      have different : name ≠ path := by
        rintro rfl
        exact (List.nodup_cons.mp distinct).1 member
      rw [stepped.others name (guarded name nameData).not_temporary different]
      exact absent name (List.mem_cons_of_mem _ member)
    rcases stepped.path with ⟨done, _⟩ | ⟨ongoing, still⟩
    · dsimp only at done
      subst done
      refine ⟨cleared_nextWrite (fun name member => known (List.mem_cons_of_mem _ member))
        (List.nodup_cons.mp distinct).2 others, .inl unchanged⟩
    · have continues : Cleared ⟨after, .saving path data left next⟩ :=
        ⟨known, distinct, List.forall_mem_cons.mpr ⟨still.trans pathAbsent, others⟩, stepped.holds, ongoing⟩
      cases next with
      | replaced => exact absurd rfl ongoing
      | _ => exact ⟨continues, .inl unchanged⟩

/-- A change to some other file. -/
theorem Cleared.elsewhere {reset : Reset} (cleared : Cleared reset) {name : String} {bytes : Bytes}
    (kept : ∀ file, Guarded file → Dict.get (Dict.set reset.directory name bytes) file = Dict.get reset.directory file)
    (permanent : ¬Temporary name) :
    Cleared { reset with directory := Dict.set reset.directory name bytes } := by
  obtain ⟨directory, phase⟩ := reset
  have data : ∀ file ∈ DATA_FILENAMES, Dict.get (Dict.set directory name bytes) file = Dict.get directory file :=
    fun file member => kept file (.inl member)
  have absentBut : ∀ left, AbsentBut directory left → AbsentBut (Dict.set directory name bytes) left :=
    fun left absent file member unlisted => (data file member).trans (absent file member unlisted)
  cases phase with
  | idle => trivial
  | archiving run left => exact ⟨cleared.1, absentBut left cleared.2⟩
  | searching run file counter left => exact ⟨cleared.1, absentBut (file :: left) cleared.2⟩
  | moving run file counter left =>
    have archive : Guarded (archiveCandidate file run.date counter) :=
      .inr ⟨file, cleared.1 List.mem_cons_self, archiveOf_candidate file run.date counter⟩
    exact ⟨cleared.1, absentBut (file :: left) cleared.2.1, (kept _ archive).trans cleared.2.2⟩
  | collecting run => exact fun file member => (data file member).trans (cleared file member)
  | saving path contents left writing =>
    obtain ⟨known, distinct, absent, holds, going⟩ := cleared
    exact ⟨known, distinct, fun file member => (data file (known member)).trans (absent file member),
      holds.set_other permanent bytes, going⟩

/-- The step lemma. -/
theorem Cleared.step {reset : Reset} (cleared : Cleared reset) (event : ResetEvent) :
    Cleared (resetStep cipher floats reset event).2 ∧ Safe reset (resetStep cipher floats reset event).2 := by
  cases event with
  | enter run =>
    obtain ⟨directory, phase⟩ := reset
    cases phase with
    | idle =>
      refine ⟨⟨List.filter_subset_self _, fun name data unlisted => ?_⟩, safe_of_same rfl⟩
      by_contra there
      exact unlisted (List.mem_filter.mpr ⟨data, Option.isSome_iff_ne_none.mpr there⟩)
    | _ => exact ⟨cleared, safe_of_same rfl⟩
  | proceed => exact cleared.proceed
  | write step =>
    obtain ⟨directory, phase⟩ := reset
    cases phase with
    | saving path data left writing => exact cleared.write step
    | _ => exact ⟨cleared, safe_of_same rfl⟩
  | raise unlinked =>
    unfold resetStep
    dsimp only
    split
    · rename_i path data left writing saving
      split
      · rename_i tmp named
        refine ⟨trivial, .inl fun name content guarded there => ?_⟩
        -- what the handler removes is a temporary file, and no data file is one
        have temporary : Temporary tmp := by
          rw [Cleared, saving] at cleared
          exact cleared.2.2.2.1.temporary named
        have different : name ≠ tmp := by
          rintro rfl
          exact guarded.not_temporary temporary
        rw [Dict.get_erase, if_neg different, there]
      · exact ⟨trivial, safe_of_same rfl⟩
    · exact ⟨trivial, safe_of_same rfl⟩
  | kill => exact ⟨trivial, safe_of_same rfl⟩
  | elsewhere name bytes =>
    unfold resetStep
    dsimp only
    split
    · exact ⟨cleared, safe_of_same rfl⟩
    · rename_i other
      obtain ⟨unguarded, undotted⟩ := not_or.mp other
      have kept : ∀ file, Guarded file →
          Dict.get (Dict.set reset.directory name bytes) file = Dict.get reset.directory file := by
        intro file guarded
        refine Dict.get_set_ne _ _ ?_
        rintro rfl
        exact unguarded guarded
      exact ⟨cleared.elsewhere kept (Storage.not_temporary undotted),
        .inl fun file content guarded there => (kept file guarded).trans there⟩

theorem Safe.kept {before after : Reset} (safe : Safe before after) : Kept before.directory after.directory := by
  rcases safe with unchanged | ⟨run, name, counter, left, _, archived⟩
  · exact unchanged.kept
  · exact archived.kept

/-- The run lemma. -/
theorem Cleared.run {reset : Reset} (cleared : Cleared reset) (events : List ResetEvent) :
    Cleared (Machine.run (resetStep cipher floats) reset events) ∧
      Kept reset.directory (Machine.run (resetStep cipher floats) reset events).directory := by
  -- on the events; the phase invariant carries it, and the places compose
  induction events generalizing reset with
  | nil => exact ⟨cleared, .refl _⟩
  | cons event rest inductionHypothesis =>
    obtain ⟨next, safe⟩ := @Cleared.step cipher floats reset cleared event
    obtain ⟨last, kept⟩ := inductionHypothesis next
    exact ⟨last, safe.kept.trans kept⟩

/-! ## The search for a name -/

/-- The loop takes one turn for each candidate that is taken. -/
theorem run_searching {directory : Storage.Directory} {run : SetupRun} {name : String} {left : List String}
    {counter count : Nat} (free : Dict.get directory (archiveCandidate name run.date (counter + count)) = none)
    (taken : ∀ earlier < count, Dict.get directory (archiveCandidate name run.date (counter + earlier)) ≠ none) :
    Machine.run (resetStep cipher floats) ⟨directory, .searching run name counter left⟩
      (List.replicate (count + 1) .proceed) = ⟨directory, .moving run name (counter + count) left⟩ := by
  induction count generalizing counter with
  | zero =>
    have stops : ¬(Dict.get directory (archiveCandidate name run.date counter)).isSome = true := by
      rw [← Nat.add_zero counter, free]
      exact Bool.false_ne_true
    simp only [List.replicate, Machine.run, resetStep, Reset.proceed, if_neg stops, Nat.add_zero]
  | succ count inductionHypothesis =>
    have first := taken 0 (Nat.succ_pos count)
    rw [Nat.add_zero] at first
    have shifted : ∀ earlier, counter + 1 + earlier = counter + (earlier + 1) := fun earlier => by omega
    have turned : (resetStep cipher floats ⟨directory, .searching run name counter left⟩ .proceed).2 =
        ⟨directory, .searching run name (counter + 1) left⟩ := by
      simp only [resetStep, Reset.proceed, if_pos (Option.isSome_iff_ne_none.mpr first)]
    rw [List.replicate_succ, Machine.run, turned, ← shifted count]
    refine inductionHypothesis (by rwa [shifted]) fun earlier before => ?_
    rw [shifted]
    exact taken (earlier + 1) (by omega)

/-- From any counter on, the search comes to a name that is not in use. -/
theorem search_ends (directory : Storage.Directory) (run : SetupRun) (name : String) (left : List String)
    (counter : Nat) :
    ∃ count ≤ directory.length,
      Machine.run (resetStep cipher floats) ⟨directory, .searching run name counter left⟩
        (List.replicate (count + 1) .proceed) = ⟨directory, .moving run name (counter + count) left⟩ ∧
      Dict.get directory (archiveCandidate name run.date (counter + count)) = none := by
  have different : Function.Injective fun count => archiveCandidate name run.date (counter + count) :=
    fun first second same => Nat.add_left_cancel (archiveCandidate_injective name run.date same)
  obtain ⟨count, within, free, taken⟩ := Dict.exists_get_none directory different
  exact ⟨count, within, run_searching free taken, free⟩

end Steps

/-- From any data directory on, whatever setup is run, and wherever its runs end: what has been
there at any moment is kept to any later one, a step overwrites and removes nothing but that a
data file becomes an archive, and the search for the name of an archive ends. -/
theorem resets_lose_nothing (cipher : Cipher) (floats : FloatText) (directory : Storage.Directory)
    (earlier later : List ResetEvent) :
    let before := run (resetStep cipher floats) ⟨directory, .idle⟩ earlier
    Kept before.directory (run (resetStep cipher floats) before later).directory ∧
    (∀ transition ∈ transitions (resetStep cipher floats) before later, Safe transition.before transition.after) ∧
    (∀ run name counter left, before.phase = .searching run name counter left →
      ∃ count ≤ before.directory.length,
        Machine.run (resetStep cipher floats) before (List.replicate (count + 1) .proceed) =
          { before with phase := .moving run name (counter + count) left } ∧
        Dict.get before.directory (archiveCandidate name run.date (counter + count)) = none) := by
  intro before
  have cleared : Cleared before := (@Cleared.run cipher floats ⟨directory, .idle⟩ trivial earlier).1
  refine ⟨(cleared.run later).2, fun transition member => ?_, fun run name counter left searching => ?_⟩
  · have reached := (@invariant_of_steps _ _ _ (resetStep cipher floats) Cleared (fun _ => True) before later
      (fun transition _ cleared stepped => by
        have after := (@Cleared.step cipher floats _ cleared transition.input).1
        rwa [stepped] at after)
      cleared fun _ _ => trivial).1 transition member
    have safe := (@Cleared.step cipher floats _ reached.1 transition.input).2
    rwa [step_of_mem_transitions member] at safe
  · obtain ⟨count, within, found, free⟩ := @search_ends cipher floats before.directory run name left counter
    refine ⟨count, within, ?_, free⟩
    rw [← found, ← searching]

/-- With an archive of the same day there, the next one gets a number. -/
example : (run (resetStep sampleCipher noFloats)
    ⟨[("hosts.dta", [1]), ("hosts.dta.old.26-01-01", [2])], .idle⟩
    [.enter (sampleSetup "k1"), .proceed, .proceed, .proceed, .proceed]).directory =
      [("hosts.dta.old.26-01-01", [2]), ("hosts.dta.old.26-01-01-1", [1])] := by
  decide +kernel

/-! ## A run that nothing interrupts

Seen file by file it makes the changes of `SetupRun.changes`, each of them at once. -/

section Whole

variable {cipher : Cipher} {floats : FloatText}

/-- One file is archived. -/
theorem run_archive {directory : Storage.Directory} {files : CryptoFile.Directory Sealed} {run : SetupRun}
    {name : String} {left : List String} {bytes : Bytes} (agrees : Agrees directory files)
    (found : Dict.get directory name = some bytes) :
    ∃ events counter, Machine.run (resetStep cipher floats) ⟨directory, .archiving run (name :: left)⟩ events =
        ⟨Dict.set (Dict.erase directory name) (archiveCandidate name run.date counter) bytes, .archiving run left⟩ ∧
      Dict.get directory (archiveCandidate name run.date counter) = none ∧
      Agrees (Dict.set (Dict.erase directory name) (archiveCandidate name run.date counter) bytes)
        (archive run.date files name) := by
  obtain ⟨counter, within, free, taken⟩ :=
    Dict.exists_get_none files (archiveCandidate_injective name run.date)
  -- the search of the other model stops at the same counter
  have path : archivePath files name run.date = archiveCandidate name run.date counter := by
    have first := @nextArchive_of_first _ files name run.date files.length 0 counter within
      (by rwa [Nat.zero_add]) fun earlier before => by
        rw [Nat.zero_add]
        exact taken earlier before
    rwa [Nat.zero_add] at first
  have free' := (agrees.none_iff _).mp free
  refine ⟨.proceed :: (List.replicate (counter + 1) .proceed ++ [.proceed]), counter, ?_, free', ?_⟩
  · have searched := @run_searching cipher floats directory run name left 0 counter (by rwa [Nat.zero_add])
      fun earlier before => by
        rw [Nat.zero_add]
        exact fun absent => taken earlier before ((agrees.none_iff _).mpr absent)
    show Machine.run (resetStep cipher floats) ⟨directory, .searching run name 0 left⟩
      (List.replicate (counter + 1) .proceed ++ [.proceed]) = _
    rw [Machine.run_append, searched, Nat.zero_add]
    simp only [Machine.run, resetStep, Reset.proceed, found]
  · intro other
    have there : Dict.get files name = some (fileOf bytes) := by rw [agrees name, found, Option.map_some]
    rw [archive, there]
    dsimp only
    rw [path, Dict.get_set, Dict.get_set, Dict.get_erase, Dict.get_erase]
    split
    · rfl
    · split
      · rfl
      · exact agrees other

/-- All of them are, one after the other. -/
theorem run_archives {run : SetupRun} {left : List String} {directory : Storage.Directory}
    {files : CryptoFile.Directory Sealed} (agrees : Agrees directory files) (distinct : left.Nodup)
    (there : ∀ name ∈ left, Dict.get directory name ≠ none) :
    ∃ events after, Machine.run (resetStep cipher floats) ⟨directory, .archiving run left⟩ events =
        ⟨after, .collecting run⟩ ∧
      Agrees after (perform (left.map fun name files => archive run.date files name) files) := by
  induction left generalizing directory files with
  | nil => exact ⟨[.proceed], directory, rfl, agrees⟩
  | cons name left inductionHypothesis =>
    obtain ⟨bytes, found⟩ := Option.ne_none_iff_exists'.mp (there name List.mem_cons_self)
    obtain ⟨first, counter, ran, free, next⟩ := @run_archive cipher floats _ _ run _ left _ agrees found
    obtain ⟨absent, distinct⟩ := List.nodup_cons.mp distinct
    obtain ⟨rest, after, finished, last⟩ := inductionHypothesis next distinct fun other member => by
      -- the file that was moved has no other's name, old or new
      have otherThere := there other (List.mem_cons_of_mem _ member)
      have different : other ≠ name := by
        rintro rfl
        exact absent member
      have apart : other ≠ archiveCandidate name run.date counter := by
        rintro rfl
        exact otherThere free
      rwa [Dict.get_set_ne _ _ apart, Dict.get_erase, if_neg different]
    exact ⟨first ++ rest, after, by rw [Machine.run_append, ran, finished], last⟩

/-- One file is written, through a temporary file whose name is free. -/
theorem run_write (directory : Storage.Directory) (path : String) (data : Bytes) (left : List (String × Bytes)) :
    ∃ events after, Machine.run (resetStep cipher floats) ⟨directory, .saving path data left .starting⟩ events =
        ⟨after, nextWrite left⟩ ∧
      ∀ name, Dict.get after name = Dict.get (Dict.set directory path data) name := by
  -- a decimal suffix is as good as any that `mkstemp` draws
  have different : Function.Injective fun count : Nat => tmpName (toString count) := by
    intro first second same
    have unsuffixed := (String.append_left_inj _).mp same
    exact toString_injective ((String.append_right_inj _).mp unsuffixed)
  obtain ⟨count, _, free, _⟩ := Dict.exists_get_none directory different
  let tmp := tmpName (toString count)
  refine ⟨[.write (.mkstemp (toString count)), .write .flush, .write .fsync, .write .replace],
    Dict.set (Dict.erase (Dict.set (Dict.set directory tmp []) tmp data) tmp) path data, ?_, fun name => ?_⟩
  · simp only [Machine.run, resetStep, Writing.step, free, Option.isSome_none, Bool.false_eq_true, ↓reduceIte,
      Dict.get_set_self]
    rfl
  · rw [Dict.get_set, Dict.get_set, Dict.get_erase, Dict.get_set, Dict.get_set]
    split
    · rfl
    · split
      · rename_i temporary
        rw [temporary, free]
      · rfl

theorem run_writes {writes : List (String × Bytes)} {directory : Storage.Directory}
    {files : CryptoFile.Directory Sealed} (agrees : Agrees directory files) :
    ∃ events after, Machine.run (resetStep cipher floats) ⟨directory, nextWrite writes⟩ events = ⟨after, .idle⟩ ∧
      Agrees after (writes.foldl (fun files write => Dict.set files write.1 (fileOf write.2)) files) := by
  induction writes generalizing directory files with
  | nil => exact ⟨[], directory, rfl, agrees⟩
  | cons write left inductionHypothesis =>
    obtain ⟨first, between, ran, written⟩ := @run_write cipher floats directory write.1 write.2 left
    obtain ⟨rest, after, finished, last⟩ := @inductionHypothesis between
      (Dict.set files write.1 (fileOf write.2)) fun name => by
        rw [agrees.set write.1 write.2 name, written name]
    refine ⟨first ++ rest, after, ?_, last⟩
    rw [Machine.run_append]
    exact (congrArg (fun reset => Machine.run (resetStep cipher floats) reset rest) ran).trans finished

/-! What setup writes can be written. -/

theorem itemsWritable_strings (texts : List String) : ItemsWritable floats (texts.map Json.str) := by
  induction texts with
  | nil => trivial
  | cons text rest inductionHypothesis => exact ⟨trivial, inductionHypothesis⟩

theorem writable_hostRecord (host : Host) (ownName : String) (ownPort : Int) (now : String) :
    Writable floats (hostRecord host ownName ownPort now) := by
  have names : (["address", "all_addresses", "port", "role", "status", "site", "online", "last_updated"] :
      List String).Nodup := by decide
  exact ⟨names, trivial, itemsWritable_strings host.addresses, trivial, trivial, trivial, trivial, trivial, trivial,
    trivial⟩

theorem writable_buildHostsData (hosts : List Host) (ownName : String) (ownPort : Int) (now : String) :
    Writable floats (buildHostsData hosts ownName ownPort now) := by
  -- the records stay under distinct names, whatever the order of the hosts
  have kept : ∀ (hosts : List Host) (records : Dict Json), (records.map Prod.fst).Nodup →
      EntriesWritable floats records →
      let all := hosts.foldl (fun records host => Dict.set records host.name (hostRecord host ownName ownPort now)) records
      (all.map Prod.fst).Nodup ∧ EntriesWritable floats all := by
    intro hosts
    induction hosts with
    | nil => exact fun records nodup writable => ⟨nodup, writable⟩
    | cons host rest inductionHypothesis =>
      intro records nodup writable
      exact inductionHypothesis _ (Dict.keys_set records host.name _ nodup).1
        (writable.set (writable_hostRecord host ownName ownPort now))
  obtain ⟨nodup, writable⟩ := kept hosts [] List.nodup_nil trivial
  exact ⟨List.nodup_singleton _, ⟨nodup, writable⟩, trivial⟩

theorem perform_saves (run : SetupRun) (ownName : String) (files : CryptoFile.Directory Sealed) :
    perform (run.saves (primitives cipher floats) (fun data => fileOf (mirrorText floats data)) ownName) files =
      (run.writes cipher floats ownName).foldl (fun files write => Dict.set files write.1 (fileOf write.2)) files := by
  have hosts := @writable_buildHostsData floats run.hosts ownName run.ownPort run.now
  simp only [perform, SetupRun.saves, SetupRun.writes, writesOf, List.foldl_cons, List.foldl_nil, fileOf_blob _ _ _ hosts,
    fileOf_blob _ _ _ (writable_empty _)]

/-- Uninterrupted, a run ends with the files that its changes make, each made at once. -/
theorem run_whole {run : SetupRun} {ownName : String} {directory : Storage.Directory}
    {files : CryptoFile.Directory Sealed} (agrees : Agrees directory files)
    (matched : matchOwnHost run.hosts run.ownHostname = .ok ownName) :
    ∃ events after, Machine.run (resetStep cipher floats) ⟨directory, .idle⟩ (.enter run :: events) = ⟨after, .idle⟩ ∧
      Agrees after (perform (run.changes (primitives cipher floats) (fun data => fileOf (mirrorText floats data))
        (existingDataFiles files)) files) := by
  have existing : existingDataFiles files = existingFiles directory := by
    refine List.filter_congr fun name _ => ?_
    rw [agrees name, Option.isSome_map]
  have distinct : (existingFiles directory).Nodup := List.Nodup.filter _ (by decide)
  obtain ⟨first, between, archived, agreesBetween⟩ := @run_archives cipher floats run _ _ _ agrees distinct
    fun name member => Option.isSome_iff_ne_none.mp (List.mem_filter.mp member).2
  obtain ⟨rest, after, written, agreesAfter⟩ :=
    @run_writes cipher floats (run.writes cipher floats ownName) _ _ agreesBetween
  refine ⟨first ++ (.proceed :: rest), after, ?_, ?_⟩
  · show Machine.run (resetStep cipher floats) ⟨directory, .archiving run (existingFiles directory)⟩
      (first ++ (.proceed :: rest)) = _
    have collected : Reset.proceed cipher floats ⟨between, .collecting run⟩ =
        ⟨between, nextWrite (run.writes cipher floats ownName)⟩ := by
      simp only [Reset.proceed, matched]
    rw [Machine.run_append, archived, Machine.run, resetStep, collected]
    exact written
  · have changes : perform (run.changes (primitives cipher floats) (fun data => fileOf (mirrorText floats data))
        (existingDataFiles files)) files =
        perform (run.saves (primitives cipher floats) (fun data => fileOf (mirrorText floats data)) ownName)
          (perform ((existingFiles directory).map fun name files => archive run.date files name) files) := by
      simp only [SetupRun.changes, matched, existing, perform, List.foldl_append]
    rw [changes, perform_saves]
    exact agreesAfter

end Whole

end SecretWeb.Setup
