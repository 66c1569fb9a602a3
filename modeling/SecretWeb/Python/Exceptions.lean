/-! # The exceptions the program raises and catches

One constructor for each exception class that some handler of the program tells apart,
carrying the text or the datum its message is built from.  The builtin classes come
first, the program's own after them. -/

namespace SecretWeb.Python

inductive PyException where
  | keyError (key : String)
  | typeError
  | attributeError (name : String)
  | valueError (message : String)
  | indexError
  | overflowError
  | unicodeDecodeError
  | unicodeEncodeError
  | jsonDecodeError
  | recursionError
  | osError
  | httpException
  | configError
  | invalidShareError (message : String)
  | shareReconstructionError (message : String)
  | shareNotFoundError (shareUuid : String)
  | secretNotFoundError (name : String)
  | peerRequestError (operation : String) (status : Nat)
  | ownHostNotFoundError
  | key1ReconstructionError (message : String)
  | invalidCryptoFileError (message : String)
  | clickException (message : String)
  | systemExit (code : Nat)
deriving DecidableEq

/-- `str(exc)` for the exceptions whose text the program copies into a message. -/
def PyException.text : PyException → String
  | .keyError key => "'" ++ key ++ "'"
  | .valueError message => message
  | .invalidShareError message => message
  | .shareReconstructionError message => message
  | .shareNotFoundError shareUuid => "no share stored for uuid " ++ shareUuid
  | .secretNotFoundError name => "no secret recorded under name '" ++ name ++ "'"
  | .peerRequestError operation status => operation ++ " failed: " ++ toString status
  | .ownHostNotFoundError =>
      "no host in hosts.json has status 'local' - can't determine this host's own identity"
  | .key1ReconstructionError message => message
  | .invalidCryptoFileError message => message
  | .clickException message => message
  | _ => ""

/-! ## Sequencing -/

section Sequencing

variable {ε α β : Type _}

@[simp] theorem ok_bind (value : α) (next : α → Except ε β) :
    (Except.ok value >>= next) = next value := rfl

@[simp] theorem error_bind (exception : ε) (next : α → Except ε β) :
    ((Except.error exception : Except ε α) >>= next) = .error exception := rfl

theorem bind_eq_ok {first : Except ε α} {next : α → Except ε β} {result : β} :
    (first >>= next) = .ok result ↔ ∃ value, first = .ok value ∧ next value = .ok result := by
  cases first <;> simp

theorem bind_eq_error {first : Except ε α} {next : α → Except ε β} {exception : ε} :
    (first >>= next) = .error exception ↔
      first = .error exception ∨ ∃ value, first = .ok value ∧ next value = .error exception := by
  cases first <;> simp

/-! What a computation raises if it raises, and what it returns if it returns. -/

def Ensures (raises : ε → Prop) (returns : α → Prop) : Except ε α → Prop
  | .error exception => raises exception
  | .ok value => returns value

section Ensures

variable {raises : ε → Prop} {returns : α → Prop}

@[simp] theorem ensures_ok (value : α) : Ensures raises returns (.ok value) ↔ returns value := Iff.rfl

@[simp] theorem ensures_error (exception : ε) : Ensures raises returns (.error exception) ↔ raises exception := Iff.rfl

theorem Ensures.raised {computation : Except ε α} {exception : ε} (ensures : Ensures raises returns computation)
    (raised : computation = .error exception) : raises exception := by
  rwa [raised] at ensures

theorem Ensures.mono {more : ε → Prop} {weaker : α → Prop} {computation : Except ε α}
    (ensures : Ensures raises returns computation) (raisesMore : ∀ exception, raises exception → more exception)
    (returnsMore : ∀ value, returns value → weaker value) : Ensures more weaker computation := by
  cases computation with
  | error exception => exact raisesMore exception ensures
  | ok value => exact returnsMore value ensures

/-- The rule for sequencing is an equivalence: the first computation has to end where the
second one can start. -/
theorem ensures_bind {results : β → Prop} (first : Except ε α) (next : α → Except ε β) :
    Ensures raises results (first >>= next) ↔
      Ensures raises (fun value => Ensures raises results (next value)) first := by
  cases first with
  | error exception => exact Iff.rfl
  | ok value => exact Iff.rfl

theorem Ensures.bind {results : β → Prop} {first : Except ε α} {next : α → Except ε β}
    (firstEnsures : Ensures raises returns first) (nextEnsures : ∀ value, returns value → Ensures raises results (next value)) :
    Ensures raises results (first >>= next) :=
  (ensures_bind first next).mpr (firstEnsures.mono (fun _ raised => raised) nextEnsures)

/-- Where nothing that is raised is allowed, the computation has to return. -/
theorem ensures_iff_exists {computation : Except ε α}
    (never : Ensures (fun exception => ¬raises exception) (fun _ => True) computation) :
    Ensures raises returns computation ↔ ∃ value, computation = .ok value ∧ returns value := by
  cases computation with
  | error exception =>
    constructor
    · exact fun raised => absurd raised never
    · rintro ⟨value, impossible, _⟩
      cases impossible
  | ok value =>
    constructor
    · exact fun returned => ⟨value, rfl, returned⟩
    · rintro ⟨other, same, returned⟩
      cases same
      exact returned

end Ensures

theorem mapM_eq_ok {action : α → Except ε β} {result : α → β} (items : List α)
    (succeeds : ∀ item ∈ items, action item = .ok (result item)) :
    items.mapM action = .ok (items.map result) := by
  induction items with
  | nil => rfl
  | cons item rest inductionHypothesis =>
    rw [List.mapM_cons, succeeds item List.mem_cons_self, ok_bind,
      inductionHypothesis fun other member => succeeds other (List.mem_cons_of_mem _ member)]
    rfl

theorem mapM_exists_ok {Good : β → Prop} {action : α → Except ε β} (items : List α)
    (succeeds : ∀ item ∈ items, ∃ result, action item = .ok result ∧ Good result) :
    ∃ results, items.mapM action = .ok results ∧ results.length = items.length ∧ ∀ result ∈ results, Good result := by
  induction items with
  | nil => exact ⟨[], rfl, rfl, by simp⟩
  | cons item rest inductionHypothesis =>
    obtain ⟨result, computed, good⟩ := succeeds item List.mem_cons_self
    obtain ⟨results, restComputed, length, restGood⟩ :=
      inductionHypothesis fun other member => succeeds other (List.mem_cons_of_mem _ member)
    refine ⟨result :: results, ?_, by simp [length], List.forall_mem_cons.mpr ⟨good, restGood⟩⟩
    rw [List.mapM_cons, computed, ok_bind, restComputed, ok_bind]
    rfl

theorem length_of_mapM_eq_some {action : α → Option β} {items : List α} {results : List β}
    (succeeded : items.mapM action = some results) : results.length = items.length := by
  induction items generalizing results with
  | nil =>
    simp only [List.mapM_nil, Option.pure_def, Option.some.injEq] at succeeded
    simp [← succeeded]
  | cons item rest inductionHypothesis =>
    simp only [List.mapM_cons, Option.bind_eq_bind, Option.bind_eq_some_iff, Option.pure_def,
      Option.some.injEq] at succeeded
    obtain ⟨result, _, tail, tailSucceeded, rfl⟩ := succeeded
    simp [inductionHypothesis tailSucceeded]

theorem length_of_mapM_eq_ok {action : α → Except ε β} {items : List α} {results : List β}
    (succeeded : items.mapM action = .ok results) : results.length = items.length := by
  induction items generalizing results with
  | nil =>
    cases succeeded
    rfl
  | cons item rest inductionHypothesis =>
    rw [List.mapM_cons, bind_eq_ok] at succeeded
    obtain ⟨result, _, succeeded⟩ := succeeded
    obtain ⟨tail, tailSucceeded, succeeded⟩ := bind_eq_ok.mp succeeded
    cases succeeded
    rw [List.length_cons, List.length_cons, inductionHypothesis tailSucceeded]

end Sequencing

end SecretWeb.Python
