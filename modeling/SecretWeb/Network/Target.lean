import SecretWeb.Data.Bytes
import Mathlib.Data.List.Basic
import Mathlib.Data.List.TakeWhile

/-! # From a request target to a route parameter

A name is put into the request target as it is.  The server drops the query, decodes the
percent escapes and the UTF-8 of the rest, and matches the path against its routes; a
route parameter takes one non-empty segment. -/

namespace SecretWeb.Network

open SecretWeb.Data

/-! ## Percent escapes -/

def hexValue (digit : UInt8) : Option UInt8 :=
  if 48 ≤ digit ∧ digit ≤ 57 then some (digit - 48)
  else if 65 ≤ digit ∧ digit ≤ 70 then some (digit - 55)
  else if 97 ≤ digit ∧ digit ≤ 102 then some (digit - 87)
  else none

/-- The byte that `%`, 37, stands for together with the two bytes after it. -/
def escaped (byte high low : UInt8) : Option UInt8 :=
  if byte = 37 then do
    let highValue ← hexValue high
    let lowValue ← hexValue low
    return highValue * 16 + lowValue
  else none

/-- `urllib.parse.unquote` on bytes: a `%` without two digits stands for itself. -/
def percentDecode : Bytes → Bytes
  | byte :: high :: low :: rest =>
    match escaped byte high low with
    | some value => value :: percentDecode rest
    | none => byte :: percentDecode (high :: low :: rest)
  | bytes => bytes

theorem percentDecode_cons_of_ne {byte : UInt8} (unescaped : byte ≠ 37) (rest : Bytes) :
    percentDecode (byte :: rest) = byte :: percentDecode rest := by
  cases rest with
  | nil => rfl
  | cons high rest =>
    cases rest with
    | nil => rfl
    | cons low rest => rw [percentDecode, escaped, if_neg unescaped]

theorem percentDecode_of_not_mem {bytes : Bytes} (unescaped : 37 ∉ bytes) : percentDecode bytes = bytes := by
  induction bytes with
  | nil => rfl
  | cons byte rest inductionHypothesis =>
    rw [List.mem_cons, not_or] at unescaped
    rw [percentDecode_cons_of_ne (Ne.symm unescaped.1), inductionHypothesis unescaped.2]

/-! ## Targets and routes -/

/-- The bytes of a request target up to the first `?`, decoded. -/
def requestPath (target : String) : Bytes :=
  percentDecode (encodeUtf8 (String.ofList (target.toList.takeWhile (· ≠ '?'))))

/-- The parameter of the route `<base><parameter>` on a path. -/
def routeParameter (base path : String) : Option String :=
  match path.toList.dropPrefix? base.toList with
  | some segment => if segment ≠ [] ∧ '/' ∉ segment then some (String.ofList segment) else none
  | none => none

-- `bytes.decode("utf-8", "ignore")`, as the framework reads a path
variable (decodePath : Bytes → String)

/-- The route parameter that a name arrives as. -/
def routed (base name : String) : Option String :=
  routeParameter base (decodePath (requestPath (base ++ name)))

/-! ## Names that arrive as they are -/

def unreserved (char : Char) : Bool := char.isAlphanum || char ∈ ['-', '.', '_', '~']

structure Plain (name : String) : Prop where
  nonempty : name ≠ ""
  unreserved : ∀ char ∈ name.toList, unreserved char = true

theorem ascii_of_unreserved {char : Char} (plain : unreserved char = true) : char.val ≤ 127 := by
  -- each class of characters is a range, and the ranges end before 127
  have upper : char.isUpper = true → char.val ≤ 127 :=
    fun range => UInt32.le_trans (of_decide_eq_true range).2 (by decide)
  have lower : char.isLower = true → char.val ≤ 127 :=
    fun range => UInt32.le_trans (of_decide_eq_true ((Bool.and_eq_true _ _).mp range).2) (by decide)
  have digit : char.isDigit = true → char.val ≤ 127 :=
    fun range => UInt32.le_trans (of_decide_eq_true ((Bool.and_eq_true _ _).mp range).2) (by decide)
  cases (Bool.or_eq_true _ _).mp plain with
  | inl alphanum =>
    cases (Bool.or_eq_true _ _).mp alphanum with
    | inl alpha => exact ((Bool.or_eq_true _ _).mp alpha).elim upper lower
    | inr decimal => exact digit decimal
  | inr mark =>
    have listed : char ∈ ['-', '.', '_', '~'] := of_decide_eq_true mark
    simp only [List.mem_cons, List.not_mem_nil, or_false] at listed
    rcases listed with rfl | rfl | rfl | rfl
    all_goals decide

theorem not_reserved {char : Char} (plain : unreserved char = true) : char ≠ '%' ∧ char ≠ '?' ∧ char ≠ '/' := by
  refine ⟨?_, ?_, ?_⟩
  all_goals
    rintro rfl
    revert plain
    decide

theorem percentDecode_encodeUtf8 {text : String}
    (plain : ∀ char ∈ text.toList, char.val ≤ 127 ∧ char ≠ '%') :
    percentDecode (encodeUtf8 text) = encodeUtf8 text := by
  refine percentDecode_of_not_mem fun member => ?_
  rw [encodeUtf8_of_ascii fun char inside => (plain char inside).1] at member
  obtain ⟨char, inside, isPercent⟩ := List.mem_map.mp member
  obtain ⟨ascii, different⟩ := plain char inside
  refine different (Char.ext (UInt32.toNat_inj.mp ?_))
  have value := congrArg UInt8.toNat isPercent
  have bound : char.val.toNat ≤ 127 := ascii
  simp only [UInt32.toNat_toUInt8] at value
  have small : char.val.toNat % 256 = char.val.toNat := Nat.mod_eq_of_lt (by omega)
  rw [← small]
  exact value

theorem routeParameter_append {base name : String} (nonempty : name ≠ "") (segment : '/' ∉ name.toList) :
    routeParameter base (base ++ name) = some name := by
  have split : (base ++ name).toList.dropPrefix? base.toList = some name.toList :=
    List.dropPrefix?_eq_some_iff.mpr ⟨base.toList, String.toList_append, by simp⟩
  have characters : name.toList ≠ [] := by
    intro empty
    exact nonempty (String.toList_eq_nil_iff.mp empty)
  rw [routeParameter, split]
  simp [characters, segment]

theorem plain_of_all {name : String} (nonempty : name ≠ "") (all : name.toList.all unreserved = true) : Plain name :=
  ⟨nonempty, List.all_eq_true.mp all⟩

/-- The characters that may stand in the fixed part of a route's path. -/
def baseCharacter (char : Char) : Bool := unreserved char || char = '/'

theorem baseCharacter_of_all {base : String} (all : base.toList.all baseCharacter = true) :
    ∀ char ∈ base.toList, baseCharacter char = true :=
  List.all_eq_true.mp all

theorem routed_of_plain {base name : String} (known : ∀ text, decodePath (encodeUtf8 text) = text)
    (fixed : ∀ char ∈ base.toList, baseCharacter char = true) (plain : Plain name) :
    routed decodePath base name = some name := by
  have characters : ∀ char ∈ (base ++ name).toList, char.val ≤ 127 ∧ char ≠ '%' ∧ char ≠ '?' := by
    intro char member
    rw [String.toList_append, List.mem_append] at member
    have kind : unreserved char = true ∨ char = '/' := by
      cases member with
      | inl inBase => simpa [baseCharacter] using fixed char inBase
      | inr inName => exact .inl (plain.unreserved char inName)
    cases kind with
    | inl free => exact ⟨ascii_of_unreserved free, (not_reserved free).1, (not_reserved free).2.1⟩
    | inr slash =>
      subst slash
      decide
  have whole : (base ++ name).toList.takeWhile (· ≠ '?') = (base ++ name).toList := by
    refine List.takeWhile_eq_self_iff.mpr fun char member => ?_
    simpa using (characters char member).2.2
  have segment : '/' ∉ name.toList := fun member => (not_reserved (plain.unreserved _ member)).2.2 rfl
  rw [routed, requestPath, whole, String.ofList_toList,
    percentDecode_encodeUtf8 fun char member => ⟨(characters char member).1, (characters char member).2.1⟩,
    known, routeParameter_append plain.nonempty segment]

end SecretWeb.Network
