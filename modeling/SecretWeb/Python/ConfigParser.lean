import SecretWeb.Python.Exceptions
import SecretWeb.Python.Dict

/-! # Options of a configuration file

The options of one section, defaults included, as a parser with its standard interpolation
reads them: a percent sign has to be doubled or to refer to another option. -/

namespace SecretWeb.Python.ConfigParser

def MAX_INTERPOLATION_DEPTH : Nat := 10

section Options

-- `str.lower`, which option names go through, and `int(text)`
variable (lower : String → String) (intOf : String → Option Int) (options : Dict String)

/-- The loop over the rest of a value; inside `%(`...`)s` it gathers the name of an option. -/
def scan (resolve : String → Except PyException (List Char)) :
    (name : Option (List Char)) → (rest : List Char) → Except PyException (List Char)
  | none, [] => .ok []
  | none, '%' :: '%' :: rest => do
    let more ← scan resolve none rest
    return '%' :: more
  | none, '%' :: '(' :: rest => scan resolve (some []) rest
  | none, '%' :: _ => .error .configError
  | none, c :: rest => do
    let more ← scan resolve none rest
    return c :: more
  | some _, [] => .error .configError
  | some name, ')' :: 's' :: rest =>
    if name = [] then .error .configError
    else do
      let value ← resolve (String.ofList name)
      let more ← scan resolve none rest
      return value ++ more
  | some _, ')' :: _ => .error .configError
  | some name, c :: rest => scan resolve (some (name ++ [c])) rest

/-- `_interpolate_some`, with the number of levels that references may still be nested. -/
def interpolateSome : (levels : Nat) → (rest : List Char) → Except PyException (List Char)
  | 0, _ => .error .configError
  | levels + 1, rest =>
    scan (fun name =>
      match Dict.get options (lower name) with
      | none => .error .configError
      | some value => if '%' ∈ value.toList then interpolateSome levels value.toList else .ok value.toList) none rest

/-- `parser.get(section, option)`, and nothing for an option that is not there. -/
def get (option : String) : Except PyException (Option String) :=
  match Dict.get options option with
  | none => .ok none
  | some raw => do
    let text ← interpolateSome lower options MAX_INTERPOLATION_DEPTH raw.toList
    return some (String.ofList text)

/-- `section[option]`. -/
def getItem (option : String) : Except PyException String := do
  match ← get lower options option with
  | none => .error (.keyError option)
  | some text => .ok text

/-- `parser.get(section, option, fallback=fallback)`. -/
def getOr (option fallback : String) : Except PyException String := do
  let text ← get lower options option
  return text.getD fallback

def toInt (text : String) : Except PyException Int :=
  match intOf text with
  | some value => .ok value
  | none => .error (.valueError ("invalid literal for int() with base 10: '" ++ text ++ "'"))

/-- `section.getint(option)`, which is `None` for an option that is not there. -/
def getintOrNone (option : String) : Except PyException (Option Int) := do
  match ← get lower options option with
  | none => .ok none
  | some text => do
    let value ← toInt intOf text
    return some value

/-- `parser.getint(section, option)`. -/
def getint (option : String) : Except PyException Int := do
  match ← get lower options option with
  | none => .error .configError
  | some text => toInt intOf text

variable {lower intOf options}

/-- A value without a percent sign is read as it is written. -/
theorem scan_plain {resolve : String → Except PyException (List Char)} {rest : List Char} (plain : '%' ∉ rest) :
    scan resolve none rest = .ok rest := by
  induction rest with
  | nil => rfl
  | cons c rest inductionHypothesis =>
    rw [List.mem_cons, not_or] at plain
    rw [scan, inductionHypothesis plain.2]
    · rfl
    · rintro rest rfl
      exact absurd rfl plain.1
    · rintro rest rfl
      exact absurd rfl plain.1
    · rintro rfl
      exact absurd rfl plain.1

theorem get_plain {option : String} (plain : ∀ raw, Dict.get options option = some raw → '%' ∉ raw.toList) :
    get lower options option = .ok (Dict.get options option) := by
  rw [get]
  cases found : Dict.get options option with
  | none => rfl
  | some raw =>
    dsimp only
    rw [MAX_INTERPOLATION_DEPTH, interpolateSome, scan_plain (plain raw found), ok_bind, String.ofList_toList]
    rfl

/-! ## What reading raises -/

theorem scan_raises {resolve : String → Except PyException (List Char)}
    (resolves : ∀ name, Ensures (· = .configError) (fun _ => True) (resolve name)) (name : Option (List Char))
    (rest : List Char) : Ensures (· = .configError) (fun _ => True) (scan resolve name rest) := by
  fun_induction scan resolve name rest with
  | case1 => exact trivial
  | case2 rest inductionHypothesis => exact inductionHypothesis.bind fun more _ => trivial
  | case3 rest inductionHypothesis => exact inductionHypothesis
  | case4 => exact rfl
  | case5 c rest _ _ _ inductionHypothesis => exact inductionHypothesis.bind fun more _ => trivial
  | case6 => exact rfl
  | case7 => exact rfl
  | case8 name rest named inductionHypothesis =>
    apply (resolves _).bind
    intro value _
    exact inductionHypothesis.bind fun more _ => trivial
  | case9 => exact rfl
  | case10 name c rest _ _ inductionHypothesis => exact inductionHypothesis

theorem interpolateSome_raises (levels : Nat) (rest : List Char) :
    Ensures (· = .configError) (fun _ => True) (interpolateSome lower options levels rest) := by
  induction levels generalizing rest with
  | zero => exact rfl
  | succ levels inductionHypothesis =>
    rw [interpolateSome]
    apply scan_raises
    intro name
    cases Dict.get options (lower name) with
    | none => exact rfl
    | some value =>
      dsimp only
      split
      · exact inductionHypothesis value.toList
      · exact trivial

theorem get_raises (option : String) : Ensures (· = .configError) (fun _ => True) (get lower options option) := by
  rw [get]
  cases Dict.get options option with
  | none => exact trivial
  | some raw => exact (interpolateSome_raises _ _).bind fun text _ => trivial

/-- `section[option]` raises `KeyError` for an option that is not there, and for no other. -/
theorem ensures_getItem {raises : PyException → Prop} {returns : String → Prop} {option : String}
    (never : ¬raises .configError) :
    Ensures raises returns (getItem lower options option) ↔
      (get lower options option = .ok none ∧ raises (.keyError option)) ∨
        ∃ text, get lower options option = .ok (some text) ∧ returns text := by
  rw [getItem, ensures_bind, ensures_iff_exists ((get_raises option).mono (fun _ same => same ▸ never) fun _ _ => trivial)]
  constructor
  · rintro ⟨_ | text, read, ensures⟩
    · exact .inl ⟨read, ensures⟩
    · exact .inr ⟨text, read, ensures⟩
  · rintro (⟨read, missing⟩ | ⟨text, read, returned⟩)
    · exact ⟨none, read, missing⟩
    · exact ⟨some text, read, returned⟩

/-- What the other ways to read an option raise. -/
def Unusable (exception : PyException) : Prop :=
  exception = .configError ∨ ∃ message, exception = .valueError message

theorem get_unusable (option : String) : Ensures Unusable (fun _ => True) (get lower options option) :=
  (get_raises option).mono (fun _ same => .inl same) fun _ _ => trivial

theorem toInt_unusable (text : String) : Ensures Unusable (fun _ => True) (toInt intOf text) := by
  rw [toInt]
  split
  · exact trivial
  · exact .inr ⟨_, rfl⟩

theorem getOr_unusable (option fallback : String) :
    Ensures Unusable (fun _ => True) (getOr lower options option fallback) :=
  (get_unusable option).bind fun text _ => trivial

theorem getintOrNone_unusable (option : String) :
    Ensures Unusable (fun _ => True) (getintOrNone lower intOf options option) := by
  apply (get_unusable option).bind
  rintro (_ | text) _
  · exact trivial
  · exact (toInt_unusable text).bind fun value _ => trivial

theorem getint_unusable (option : String) :
    Ensures Unusable (fun _ => True) (getint lower intOf options option) := by
  apply (get_unusable option).bind
  rintro (_ | text) _
  · exact .inl rfl
  · exact toInt_unusable _

end Options

end SecretWeb.Python.ConfigParser
