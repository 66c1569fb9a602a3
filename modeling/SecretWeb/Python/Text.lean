import SecretWeb.Data.Bytes

/-! # Python strings

A Python string may hold what has no UTF-8.  Where the program encodes a string that comes from
outside, the string is a list of code points here; everywhere else it is a `String`. -/

namespace SecretWeb.Python

open SecretWeb.Data

/-- An element of a Python string: a lone surrogate is one too, and has no UTF-8. -/
inductive CodePoint where
  | scalar (char : Char)
  | surrogate (index : Fin 2048)

def CodePoint.char? : CodePoint → Option Char
  | .scalar char => some char
  | .surrogate _ => none

/-- `str.encode("utf-8")`. -/
def encodeText (text : List CodePoint) : Option Bytes :=
  (text.mapM CodePoint.char?).map fun chars => encodeUtf8 (String.ofList chars)

def codePoints (text : String) : List CodePoint := text.toList.map .scalar

theorem mapM_char?_eq_some {text : List CodePoint} {chars : List Char} :
    text.mapM CodePoint.char? = some chars ↔ text = chars.map .scalar := by
  induction text generalizing chars with
  | nil => cases chars <;> simp
  | cons point rest inductionHypothesis =>
    cases point with
    | scalar char =>
      cases chars with
      | nil => cases read : rest.mapM CodePoint.char? <;> simp [CodePoint.char?, read]
      | cons other others =>
        rw [List.mapM_cons, List.map_cons, List.cons.injEq, CodePoint.scalar.injEq, ← inductionHypothesis]
        cases rest.mapM CodePoint.char? with
        | none => simp [CodePoint.char?]
        | some more => simp [CodePoint.char?]
    | surrogate index => cases chars <;> simp [CodePoint.char?]

/-- Text that can be encoded has no lone surrogate. -/
theorem encodeText_eq_some {text : List CodePoint} {bytes : Bytes} :
    encodeText text = some bytes ↔ ∃ string, text = codePoints string ∧ bytes = encodeUtf8 string := by
  rw [encodeText, Option.map_eq_some_iff]
  constructor
  · rintro ⟨chars, read, rfl⟩
    exact ⟨String.ofList chars, by rw [codePoints, String.toList_ofList, mapM_char?_eq_some.mp read], rfl⟩
  · rintro ⟨string, rfl, rfl⟩
    exact ⟨string.toList, mapM_char?_eq_some.mpr rfl, by rw [String.ofList_toList]⟩

@[simp] theorem encodeText_codePoints (text : String) : encodeText (codePoints text) = some (encodeUtf8 text) :=
  encodeText_eq_some.mpr ⟨text, rfl, rfl⟩

/-- `str.isspace` of one character. -/
def isSpace (c : Char) : Bool :=
  (9 ≤ c.toNat ∧ c.toNat ≤ 13) ∨ (28 ≤ c.toNat ∧ c.toNat ≤ 32) ∨ c.toNat = 133 ∨ c.toNat = 160 ∨ c.toNat = 5760 ∨
    (8192 ≤ c.toNat ∧ c.toNat ≤ 8202) ∨ c.toNat = 8232 ∨ c.toNat = 8233 ∨ c.toNat = 8239 ∨ c.toNat = 8287 ∨
    c.toNat = 12288

def strip (text : List Char) : List Char := ((text.dropWhile isSpace).reverse.dropWhile isSpace).reverse

/-- Different numbers have different numerals. -/
theorem toString_injective : Function.Injective (toString : Nat → String) := by
  have read : ∀ count : Nat, Nat.ofDigitChars 10 (toString count).toList 0 = count := by
    intro count
    rw [show (toString count).toList = Nat.toDigits 10 count from Nat.toList_repr]
    exact Nat.ofDigitChars_ten_toDigits
  intro left right same
  rw [← read left, same, read]

end SecretWeb.Python
