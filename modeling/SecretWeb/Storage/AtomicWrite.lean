import SecretWeb.Storage.Envelope

/-! # Writing a file, step by step

`atomic_write_bytes` between its system calls.  A process that is killed on the way leaves
its temporary file behind and the file itself as it was; only the last step changes it, and
then to all the data. -/

namespace SecretWeb.Storage

open SecretWeb.Data SecretWeb.Python

/-- How far a write has come; `count` bytes have reached the temporary file so far. -/
inductive Writing where
  | starting
  | opened (tmp : String) (count : Nat)
  | flushed (tmp : String)
  | synced (tmp : String)
  | replaced

inductive WriteStep where
  | mkstemp (unique : String)
  | write (count : Nat)
  | flush
  | fsync
  | replace

def tmpName (unique : String) : String := ".tmp-" ++ unique ++ ".tmp"

/-- One step; one that is not due changes nothing. -/
def Writing.step (path : String) (data : Bytes) (directory : Directory) : Writing → WriteStep → Writing × Directory
  | .starting, .mkstemp unique =>
    -- `mkstemp` looks for a name that is not taken
    if (Dict.get directory (tmpName unique)).isSome then (.starting, directory)
    else (.opened (tmpName unique) 0, Dict.set directory (tmpName unique) [])
  | .opened tmp count, .write more =>
    (.opened tmp (count + more), Dict.set directory tmp (data.take (count + more)))
  | .opened tmp _, .flush => (.flushed tmp, Dict.set directory tmp data)
  | .flushed tmp, .fsync => (.synced tmp, directory)
  | .synced tmp, .replace =>
    match Dict.get directory tmp with
    | some bytes => (.replaced, Dict.set (Dict.erase directory tmp) path bytes)
    | none => (.synced tmp, directory)
  | writing, _ => (writing, directory)

def Temporary (name : String) : Prop := ∃ unique, name = tmpName unique

theorem not_temporary {name : String} (head : name.toList.head? ≠ some '.') : ¬Temporary name := by
  rintro ⟨unique, rfl⟩
  apply head
  rw [tmpName, String.toList_append, String.toList_append]
  rfl

/-- The temporary file holds what has been written so far. -/
def Writing.Holds (data : Bytes) (directory : Directory) : Writing → Prop
  | .starting => True
  | .opened tmp count => Temporary tmp ∧ Dict.get directory tmp = some (data.take count)
  | .flushed tmp => Temporary tmp ∧ Dict.get directory tmp = some data
  | .synced tmp => Temporary tmp ∧ Dict.get directory tmp = some data
  | .replaced => True

/-- What a step does to the files that have names of their own: nothing, or it puts all the
data into the one that is written. -/
structure Writing.Stepped (path : String) (data : Bytes) (directory after : Directory) (writing next : Writing) :
    Prop where
  holds : next.Holds data after
  others : ∀ other, ¬Temporary other → other ≠ path → Dict.get after other = Dict.get directory other
  path : (next = .replaced ∧ Dict.get after path = some data) ∨
    (next ≠ .replaced ∧ Dict.get after path = Dict.get directory path)

section Steps

variable {path : String} {data : Bytes} {directory : Directory}

theorem Writing.stepped_of_same {writing : Writing} (holds : writing.Holds data directory)
    (going : writing ≠ .replaced) : Writing.Stepped path data directory directory writing writing :=
  ⟨holds, fun _ _ _ => rfl, .inr ⟨going, rfl⟩⟩

/-- Steps that write to the temporary file only. -/
theorem Writing.stepped_of_set {writing next : Writing} {tmp : String} {bytes : Bytes} (named : ¬Temporary path)
    (temporary : Temporary tmp) (holds : next.Holds data (Dict.set directory tmp bytes)) (going : next ≠ .replaced) :
    Writing.Stepped path data directory (Dict.set directory tmp bytes) writing next := by
  have untouched : ∀ other, ¬Temporary other →
      Dict.get (Dict.set directory tmp bytes) other = Dict.get directory other := by
    intro other permanent
    refine Dict.get_set_ne _ _ ?_
    rintro rfl
    exact permanent temporary
  exact ⟨holds, fun other permanent _ => untouched other permanent, .inr ⟨going, untouched path named⟩⟩

/-- The step lemma. -/
theorem Writing.step_stepped {writing : Writing} (named : ¬Temporary path) (holds : writing.Holds data directory)
    (going : writing ≠ .replaced) (step : WriteStep) :
    Writing.Stepped path data directory (writing.step path data directory step).2 writing
      (writing.step path data directory step).1 := by
  cases writing with
  | replaced => exact absurd rfl going
  | starting =>
    cases step with
    | mkstemp unique =>
      rw [Writing.step]
      split
      · exact stepped_of_same holds going
      · exact stepped_of_set named ⟨unique, rfl⟩ ⟨⟨unique, rfl⟩, by rw [Dict.get_set_self, List.take_zero]⟩ (by simp)
    | _ => exact stepped_of_same holds going
  | opened tmp count =>
    cases step with
    | write more =>
      exact stepped_of_set named holds.1 ⟨holds.1, Dict.get_set_self _ _ _⟩ (by simp [Writing.step])
    | flush => exact stepped_of_set named holds.1 ⟨holds.1, Dict.get_set_self _ _ _⟩ (by simp [Writing.step])
    | _ => exact stepped_of_same holds going
  | flushed tmp =>
    cases step with
    | fsync => exact ⟨holds, fun _ _ _ => rfl, .inr ⟨by simp [Writing.step], rfl⟩⟩
    | _ => exact stepped_of_same holds going
  | synced tmp =>
    cases step with
    | replace =>
      rw [Writing.step, holds.2]
      refine ⟨trivial, fun other permanent different => ?_, .inl ⟨rfl, Dict.get_set_self _ _ _⟩⟩
      have kept : other ≠ tmp := by
        rintro rfl
        exact permanent holds.1
      show Dict.get (Dict.set (Dict.erase directory tmp) path data) other = Dict.get directory other
      rw [Dict.get_set_ne _ _ different, Dict.get_erase, if_neg kept]
    | _ => exact stepped_of_same holds going

/-- Files with names of their own do not matter. -/
theorem Writing.Holds.set_other {writing : Writing} {name : String} (holds : writing.Holds data directory)
    (permanent : ¬Temporary name) (bytes : Bytes) : writing.Holds data (Dict.set directory name bytes) := by
  have apart : ∀ tmp, Temporary tmp → Dict.get (Dict.set directory name bytes) tmp = Dict.get directory tmp := by
    intro tmp temporary
    refine Dict.get_set_ne _ _ ?_
    rintro rfl
    exact permanent temporary
  cases writing with
  | starting => trivial
  | opened tmp count => exact ⟨holds.1, (apart tmp holds.1).trans holds.2⟩
  | flushed tmp => exact ⟨holds.1, (apart tmp holds.1).trans holds.2⟩
  | synced tmp => exact ⟨holds.1, (apart tmp holds.1).trans holds.2⟩
  | replaced => trivial

/-- A write that nobody interrupts puts the data there. -/
theorem Writing.finishes {unique : String} (free : Dict.get directory (tmpName unique) = none) :
    let first := Writing.step path data directory .starting (.mkstemp unique)
    let second := Writing.step path data first.2 first.1 .flush
    let third := Writing.step path data second.2 second.1 .fsync
    let last := Writing.step path data third.2 third.1 .replace
    last.1 = .replaced ∧ Dict.get last.2 path = some data := by
  simp only [Writing.step, free, Option.isSome_none, Bool.false_eq_true, ↓reduceIte, Dict.get_set_self, and_self]

end Steps

end SecretWeb.Storage
