import SecretWeb.Python.Exceptions
import SecretWeb.Python.Dict
import Mathlib.Data.Rat.Defs

/-! # JSON documents as Python sees them

What `json.loads` can return and the program then inspects: Python's `==` (numbers of
different types compare by value, dictionaries ignore order), truth value, the integer
test `isinstance(x, int)` under which `True` and `False` are 1 and 0, and subscripting
with its exceptions.  Lists and tuples are one constructor: `json.dumps` writes both as
arrays, and every test of the program on the one admits the other. -/

namespace SecretWeb.Python

/-- A Python float: a finite one by its value, negative zero apart. -/
inductive PyFloat where
  | nan
  | infinity (negative : Bool)
  | negativeZero
  | finite (value : Rat)
deriving DecidableEq

inductive Json where
  | null
  | bool (value : Bool)
  | int (value : Int)
  | float (value : PyFloat)
  | str (text : String)
  | list (items : List Json)
  | dict (entries : List (String × Json))

/-- What two numbers are compared by, whatever their types; NaN compares to nothing. -/
inductive PyNumber where
  | finite (value : Rat)
  | infinity (negative : Bool)
deriving DecidableEq

def PyFloat.number : PyFloat → Option PyNumber
  | .nan => none
  | .infinity negative => some (.infinity negative)
  | .negativeZero => some (.finite 0)
  | .finite value => some (.finite value)

namespace Json

def number : Json → Option PyNumber
  | .bool value => some (.finite (if value then 1 else 0))
  | .int value => some (.finite value)
  | .float value => value.number
  | _ => none

/-- `isinstance(x, int)`, with the integer `x` then stands for. -/
def asInt : Json → Option Int
  | .bool value => some (if value then 1 else 0)
  | .int value => some value
  | _ => none

/-- `isinstance(x, (list, tuple))`. -/
def asList : Json → Option (List Json)
  | .list items => some items
  | _ => none

/-- `isinstance(x, dict)`. -/
def asDict : Json → Option (Dict Json)
  | .dict entries => some entries
  | _ => none

/-- `bool(x)`. -/
def truthy : Json → Bool
  | .null => false
  | .bool value => value
  | .int value => value ≠ 0
  | .float value => value.number ≠ some (.finite 0)
  | .str text => text ≠ ""
  | .list items => !items.isEmpty
  | .dict entries => !entries.isEmpty

/-- Whether `x` can be a member of a set. -/
def hashable : Json → Bool
  | .list _ | .dict _ => false
  | _ => true

mutual
/-- How many lists and dictionaries there are around the innermost value. -/
def nesting : Json → Nat
  | .list items => nestingItems items + 1
  | .dict entries => nestingEntries entries + 1
  | _ => 0
termination_by structural value => value

def nestingItems : List Json → Nat
  | [] => 0
  | item :: rest => max (nesting item) (nestingItems rest)
termination_by structural items => items

def nestingEntries : List (String × Json) → Nat
  | [] => 0
  | entry :: rest => max (nestingEntry entry) (nestingEntries rest)
termination_by structural entries => entries

def nestingEntry : String × Json → Nat
  | (_, value) => nesting value
termination_by structural entry => entry
end

/-- The same NaN: `json.loads` has one object for all of them. -/
def bothNan : Json → Json → Bool
  | .float .nan, .float .nan => true
  | _, _ => false

mutual
/-- Python's `==`.  Inside a list or a dictionary the same object is as good as an equal one. -/
def equals : Json → Json → Bool
  | .null, .null => true
  | .str left, .str right => left == right
  | .list left, .list right => equalsItems left right
  | .dict left, .dict right => left.length == right.length && equalsEntries left right
  | left, right =>
    match left.number, right.number with
    | some leftNumber, some rightNumber => leftNumber = rightNumber
    | _, _ => false
termination_by structural left => left

def equalsItems : List Json → List Json → Bool
  | [], [] => true
  | left :: lefts, right :: rights => (equals left right || bothNan left right) && equalsItems lefts rights
  | _, _ => false
termination_by structural left => left

def equalsEntries : List (String × Json) → List (String × Json) → Bool
  | [], _ => true
  | entry :: rest, other => equalsEntry entry other && equalsEntries rest other
termination_by structural left => left

def equalsEntry : String × Json → List (String × Json) → Bool
  | (key, value), other =>
    match Dict.get other key with
    | some found => equals value found || bothNan value found
    | none => false
termination_by structural entry => entry
end

/-- How a set, a list and a dictionary compare what is in them. -/
def sameMember (left right : Json) : Bool := left.equals right || bothNan left right

theorem equals_str (text : String) (value : Json) :
    equals (.str text) value = true ↔ value = .str text := by
  cases value <;> simp [equals, number, eq_comm (a := text)]

theorem str_equals (text : String) (value : Json) :
    equals value (.str text) = true ↔ value = .str text := by
  cases value <;> simp [equals, number]

@[simp] theorem equals_str_str (left right : String) :
    equals (.str left) (.str right) = decide (left = right) := by
  by_cases same : left = right <;> simp [equals, same]

theorem equals_null (value : Json) : equals .null value = true ↔ value = .null := by
  cases value <;> simp [equals, number]

theorem equals_of_number {left : Json} {value : PyNumber} (number : left.number = some value) (right : Json) :
    left.equals right = true ↔ right.number = some value := by
  have compared : left.equals right =
      match left.number, right.number with
      | some leftNumber, some rightNumber => decide (leftNumber = rightNumber)
      | _, _ => false := by
    cases left with
    | bool flag => cases right <;> rfl
    | int integer => cases right <;> rfl
    | float float => cases right <;> rfl
    | null => cases number
    | str text => cases number
    | list items => cases number
    | dict entries => cases number
  rw [compared, number]
  cases right.number with
  | none => simp
  | some other => simp [eq_comm]

theorem bothNan_eq_true {left right : Json} : bothNan left right = true ↔ left = .float .nan ∧ right = .float .nan := by
  unfold bothNan
  split
  · simp
  · rename_i different
    constructor
    · intro impossible
      cases impossible
    · rintro ⟨rfl, rfl⟩
      exact absurd rfl (different rfl)

theorem sameMember_str (text : String) (value : Json) : sameMember (.str text) value = true ↔ value = .str text := by
  rw [sameMember, Bool.or_eq_true, equals_str, bothNan_eq_true]
  simp

theorem sameMember_list (items : List Json) (value : Json) :
    sameMember (.list items) value = true ↔ equals (.list items) value = true := by
  rw [sameMember, Bool.or_eq_true, bothNan_eq_true]
  simp

theorem nan_equals (value : Json) : equals (.float .nan) value = false := by
  cases value <;> simp [equals, number, PyFloat.number]

theorem equals_nan (value : Json) : equals value (.float .nan) = false := by
  cases value <;> simp [equals, number, PyFloat.number]

/-- NaN is the same as NaN only, so that it does not matter which way two values are the same. -/
theorem sameMember_trans {left middle right : Json}
    (equals_trans : left.equals middle = true → middle.equals right = true → left.equals right = true)
    (first : left.sameMember middle = true) (second : middle.sameMember right = true) :
    left.sameMember right = true := by
  simp only [sameMember, Bool.or_eq_true, bothNan_eq_true] at first second ⊢
  obtain firstEqual | ⟨rfl, rfl⟩ := first
  · obtain secondEqual | ⟨rfl, rfl⟩ := second
    · exact .inl (equals_trans firstEqual secondEqual)
    · rw [equals_nan] at firstEqual
      cases firstEqual
  · obtain secondEqual | ⟨_, rfl⟩ := second
    · rw [nan_equals] at secondEqual
      cases secondEqual
    · exact .inr ⟨rfl, rfl⟩

theorem equals_trans_of_number {left middle right : Json} {value : PyNumber} (number : left.number = some value)
    (first : left.equals middle = true) (second : middle.equals right = true) : left.equals right = true := by
  have middleNumber := (equals_of_number number middle).mp first
  have rightNumber := (equals_of_number middleNumber right).mp second
  exact (equals_of_number number right).mpr rightNumber

theorem equals_list (items : List Json) (right : Json) :
    equals (.list items) right = true ↔ ∃ others, right = .list others ∧ equalsItems items others = true := by
  cases right <;> simp [equals, number]

theorem equals_dict (entries : Dict Json) (right : Json) :
    equals (.dict entries) right = true ↔
      ∃ others, right = .dict others ∧ entries.length = others.length ∧ equalsEntries entries others = true := by
  cases right <;> simp [equals, number]

theorem equalsEntries_get {entries others : Dict Json} (same : equalsEntries entries others = true) {key : String}
    {value : Json} (member : (key, value) ∈ entries) :
    ∃ other, Dict.get others key = some other ∧ value.sameMember other = true := by
  induction entries with
  | nil => cases member
  | cons entry rest inductionHypothesis =>
    rw [equalsEntries, Bool.and_eq_true] at same
    cases List.mem_cons.mp member with
    | inl first =>
      subst first
      have found := same.1
      rw [equalsEntry] at found
      cases present : Dict.get others key with
      | none => simp [present] at found
      | some other => exact ⟨other, rfl, by simpa [present, sameMember] using found⟩
    | inr later => exact inductionHypothesis same.2 later

/-! Python's `==` is transitive on what `json.loads` returns.  The induction follows the
left value. -/

mutual
theorem equals_trans {left middle right : Json} (first : left.equals middle = true)
    (second : middle.equals right = true) : left.equals right = true := by
  cases left with
  | null =>
    obtain rfl := (equals_null middle).mp first
    exact second
  | str text =>
    obtain rfl := (equals_str text middle).mp first
    exact second
  | bool flag => exact equals_trans_of_number rfl first second
  | int integer => exact equals_trans_of_number rfl first second
  | float float =>
    cases number : (Json.float float).number with
    | none =>
      -- NaN equals nothing
      cases middle <;> simp [equals, number] at first
    | some value => exact equals_trans_of_number number first second
  | list items =>
    obtain ⟨others, rfl, same⟩ := (equals_list items middle).mp first
    obtain ⟨more, rfl, again⟩ := (equals_list others right).mp second
    exact (equals_list items _).mpr ⟨more, rfl, equalsItems_trans same again⟩
  | dict entries =>
    obtain ⟨others, rfl, length, same⟩ := (equals_dict entries middle).mp first
    obtain ⟨more, rfl, otherLength, again⟩ := (equals_dict others right).mp second
    exact (equals_dict entries _).mpr ⟨more, rfl, length.trans otherLength, equalsEntries_trans same again⟩
termination_by structural left

theorem equalsItems_trans {left middle right : List Json} (first : equalsItems left middle = true)
    (second : equalsItems middle right = true) : equalsItems left right = true := by
  cases left with
  | nil =>
    cases middle with
    | nil => exact second
    | cons item rest => simp [equalsItems] at first
  | cons item rest =>
    cases middle with
    | nil => simp [equalsItems] at first
    | cons middleItem middleRest =>
      cases right with
      | nil => simp [equalsItems] at second
      | cons rightItem rightRest =>
        rw [equalsItems, Bool.and_eq_true] at first second ⊢
        exact ⟨sameMember_trans equals_trans first.1 second.1, equalsItems_trans first.2 second.2⟩
termination_by structural left

theorem equalsEntries_trans {left middle right : List (String × Json)} (first : equalsEntries left middle = true)
    (second : equalsEntries middle right = true) : equalsEntries left right = true := by
  cases left with
  | nil => rfl
  | cons entry rest =>
    rw [equalsEntries, Bool.and_eq_true] at first ⊢
    exact ⟨equalsEntry_trans first.1 second, equalsEntries_trans first.2 second⟩
termination_by structural left

theorem equalsEntry_trans {entry : String × Json} {middle right : List (String × Json)}
    (first : equalsEntry entry middle = true) (second : equalsEntries middle right = true) :
    equalsEntry entry right = true := by
  obtain ⟨key, value⟩ := entry
  rw [equalsEntry] at first ⊢
  cases present : Dict.get middle key with
  | none => simp [present] at first
  | some found =>
    simp only [present] at first
    obtain ⟨other, otherPresent, same⟩ := equalsEntries_get second (Dict.mem_of_get present)
    simp only [otherPresent]
    exact sameMember_trans equals_trans first same
termination_by structural entry
end

theorem sameMember_refl {value : Json} (hashable : value.hashable = true) :
    value.sameMember value = true := by
  cases value with
  | float number => cases number <;> simp [sameMember, bothNan, equals, Json.number, PyFloat.number]
  | list items => cases hashable
  | dict entries => cases hashable
  | _ => simp [sameMember, equals, Json.number]

/-- `mapping[key]`: anything but a dictionary raises `TypeError` on a string subscript. -/
def getItem (document : Json) (key : String) : Except PyException Json :=
  match document with
  | .dict entries =>
    match Dict.get entries key with
    | some value => .ok value
    | none => .error (.keyError key)
  | _ => .error .typeError

/-- `mapping.get(key)`, for which only dictionaries have the method. -/
def getOptional (document : Json) (key : String) : Except PyException Json :=
  match document with
  | .dict entries => .ok ((Dict.get entries key).getD .null)
  | _ => .error (.attributeError "get")

theorem getItem_eq_error {document : Json} {key : String} {exception : PyException}
    (missing : document.getItem key = .error exception) :
    exception = .keyError key ∨ exception = .typeError := by
  unfold getItem at missing
  split at missing
  · split at missing
    · cases missing
    · cases missing
      exact .inl rfl
  · cases missing
    exact .inr rfl

theorem getItem_dict_raises (entries : Dict Json) (key : String) :
    Ensures (· = .keyError key) (fun _ => True) (getItem (.dict entries) key) := by
  rw [getItem]
  cases Dict.get entries key with
  | none => exact rfl
  | some value => exact trivial

@[simp] theorem getItem_dict (entries : Dict Json) (key : String) :
    getItem (.dict entries) key =
      match Dict.get entries key with
      | some value => .ok value
      | none => .error (.keyError key) := rfl

theorem getItem_dict_eq_ok {entries : Dict Json} {key : String} {value : Json} :
    getItem (.dict entries) key = .ok value ↔ Dict.get entries key = some value := by
  rw [getItem_dict]
  cases Dict.get entries key with
  | none => exact ⟨nofun, nofun⟩
  | some other => rw [Except.ok.injEq, Option.some.injEq]

end Json

end SecretWeb.Python
