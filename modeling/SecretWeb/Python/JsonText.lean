import SecretWeb.Data.Bytes
import SecretWeb.Python.Json

/-! # JSON as text

`json.dumps` with its default separators and `ensure_ascii`, and the scanner behind
`json.loads`.  The text of a document is read back as that document.  How floats are written
and read is left open but for that law.  A string is made of characters here: the escape of
a lone surrogate, which Python would read, is refused.  The digits of an integer and the nesting
of a document have no limit here. -/

namespace SecretWeb.Python.JsonText

open SecretWeb.Data

/-! ## Strings -/

/-- `\uXXXX` for a UTF-16 code unit. -/
def unicodeEscape (unit : Nat) : List Char :=
  ['\\', 'u', (unit / 4096 % 16).digitChar, (unit / 256 % 16).digitChar, (unit / 16 % 16).digitChar,
    (unit % 16).digitChar]

/-- Characters outside the basic plane take two escapes. -/
def escape (c : Char) : List Char :=
  if c = '"' then ['\\', '"']
  else if c = '\\' then ['\\', '\\']
  else if c.toNat = 8 then ['\\', 'b']
  else if c.toNat = 12 then ['\\', 'f']
  else if c = '\n' then ['\\', 'n']
  else if c = '\r' then ['\\', 'r']
  else if c = '\t' then ['\\', 't']
  else if 0x20 ≤ c.toNat ∧ c.toNat ≤ 0x7e then [c]
  else if c.toNat < 0x10000 then unicodeEscape c.toNat
  else unicodeEscape (0xd800 + (c.toNat - 0x10000) / 0x400) ++ unicodeEscape (0xdc00 + (c.toNat - 0x10000) % 0x400)

def quoted (text : String) : List Char := '"' :: (text.toList.flatMap escape ++ ['"'])

def hexValue (c : Char) : Option Nat :=
  if '0' ≤ c ∧ c ≤ '9' then some (c.toNat - 48)
  else if 'a' ≤ c ∧ c ≤ 'f' then some (c.toNat - 87)
  else if 'A' ≤ c ∧ c ≤ 'F' then some (c.toNat - 55)
  else none

/-- The code unit of four hexadecimal digits. -/
def hexUnit (first second third fourth : Char) : Option Nat := do
  let first ← hexValue first
  let second ← hexValue second
  let third ← hexValue third
  let fourth ← hexValue fourth
  return ((first * 16 + second) * 16 + third) * 16 + fourth

/-- What a backslash and this character stand for. -/
def simpleEscape (c : Char) : Option Char :=
  if c = '"' then some '"'
  else if c = '\\' then some '\\'
  else if c = '/' then some '/'
  else if c = 'b' then some (Char.ofNat 8)
  else if c = 'f' then some (Char.ofNat 12)
  else if c = 'n' then some '\n'
  else if c = 'r' then some '\r'
  else if c = 't' then some '\t'
  else none

/-- The character of a code unit that is not a surrogate. -/
def basicChar (unit : Nat) : Option Char :=
  if 0xd800 ≤ unit ∧ unit ≤ 0xdfff then none else some (Char.ofNat unit)

/-- The character of a surrogate pair. -/
def pairChar (high low : Nat) : Option Char :=
  if 0xd800 ≤ high ∧ high ≤ 0xdbff ∧ 0xdc00 ≤ low ∧ low ≤ 0xdfff then
    some (Char.ofNat (0x10000 + (high - 0xd800) * 0x400 + (low - 0xdc00)))
  else none

/-- One character of a string, escaped or not, and what follows it. -/
def scanChar : List Char → Option (Char × List Char)
  | '\\' :: 'u' :: first :: second :: third :: fourth :: rest =>
    match hexUnit first second third fourth with
    | none => none
    | some unit =>
      match basicChar unit, rest with
      | some c, _ => some (c, rest)
      -- a high surrogate, which the next escape has to complete
      | none, '\\' :: 'u' :: fifth :: sixth :: seventh :: eighth :: rest =>
        (hexUnit fifth sixth seventh eighth).bind fun low => (pairChar unit low).map (·, rest)
      -- a lone surrogate
      | none, _ => none
  | '\\' :: escaped :: rest => (simpleEscape escaped).map (·, rest)
  | c :: rest =>
    -- strict: control characters have to be escaped, and a last backslash escapes nothing
    if c.toNat < 0x20 ∨ c = '\\' then none else some (c, rest)
  | [] => none

/-- `scanstring` after the opening quote: the string and what follows its closing one.  Every
character takes at least one of the text, so its length is fuel enough. -/
def scanString : (fuel : Nat) → List Char → Option (List Char × List Char)
  | 0, _ => none
  | _ + 1, '"' :: rest => some ([], rest)
  | fuel + 1, text =>
    match scanChar text with
    | none => none
    | some (c, rest) => (scanString fuel rest).map fun (more, after) => (c :: more, after)

/-! ### A string is read as it was written -/

theorem hexValue_digitChar {digit : Nat} (small : digit < 16) : hexValue digit.digitChar = some digit := by
  have all : ∀ digit < 16, hexValue (Nat.digitChar digit) = some digit := by decide
  exact all digit small

theorem hexUnit_unicodeEscape {unit : Nat} (small : unit < 0x10000) :
    hexUnit (unit / 4096 % 16).digitChar (unit / 256 % 16).digitChar (unit / 16 % 16).digitChar
      (unit % 16).digitChar = some unit := by
  simp only [hexUnit, hexValue_digitChar (Nat.mod_lt _ (show 16 > 0 by decide)), Option.bind_eq_bind,
    Option.bind_some, Option.pure_def, Option.some.injEq]
  omega

/-- No character is a surrogate. -/
theorem toNat_not_surrogate (c : Char) : ¬(0xd800 ≤ c.toNat ∧ c.toNat ≤ 0xdfff) := by
  have valid := c.valid
  simp only [UInt32.isValidChar, Nat.isValidChar] at valid
  show ¬(0xd800 ≤ c.val.toNat ∧ c.val.toNat ≤ 0xdfff)
  omega

theorem toNat_le (c : Char) : c.toNat ≤ 0x10ffff := by
  have valid := c.valid
  simp only [UInt32.isValidChar, Nat.isValidChar] at valid
  show c.val.toNat ≤ 0x10ffff
  omega

theorem scanChar_unicodeEscape {c : Char} (small : c.toNat < 0x10000) (rest : List Char) :
    scanChar (unicodeEscape c.toNat ++ rest) = some (c, rest) := by
  simp only [unicodeEscape, List.cons_append, List.nil_append, scanChar, hexUnit_unicodeEscape small, basicChar,
    if_neg (toNat_not_surrogate c), Char.ofNat_toNat]

theorem scanChar_units {high low : Nat} (surrogate : 0xd800 ≤ high ∧ high ≤ 0xdfff) (small : low < 0x10000)
    (rest : List Char) :
    scanChar (unicodeEscape high ++ (unicodeEscape low ++ rest)) = (pairChar high low).map (·, rest) := by
  have highSmall : high < 0x10000 := by omega
  simp only [unicodeEscape, List.cons_append, List.nil_append, scanChar, hexUnit_unicodeEscape highSmall, basicChar,
    if_pos surrogate, hexUnit_unicodeEscape small, Option.bind_some]

theorem pairChar_of_toNat {c : Char} {high low : Nat} (highRange : 0xd800 ≤ high ∧ high ≤ 0xdbff)
    (lowRange : 0xdc00 ≤ low ∧ low ≤ 0xdfff)
    (value : c.toNat = 0x10000 + (high - 0xd800) * 0x400 + (low - 0xdc00)) : pairChar high low = some c := by
  rw [pairChar, if_pos ⟨highRange.1, highRange.2, lowRange.1, lowRange.2⟩, ← value, Char.ofNat_toNat]

theorem scanChar_pair {c : Char} (large : 0x10000 ≤ c.toNat) (rest : List Char) :
    scanChar ((unicodeEscape (0xd800 + (c.toNat - 0x10000) / 0x400) ++
      unicodeEscape (0xdc00 + (c.toNat - 0x10000) % 0x400)) ++ rest) = some (c, rest) := by
  have bound := toNat_le c
  obtain ⟨high, isHigh⟩ : ∃ high, high = 0xd800 + (c.toNat - 0x10000) / 0x400 := ⟨_, rfl⟩
  obtain ⟨low, isLow⟩ : ∃ low, low = 0xdc00 + (c.toNat - 0x10000) % 0x400 := ⟨_, rfl⟩
  rw [← isHigh, ← isLow, List.append_assoc, scanChar_units (by omega) (by omega) rest,
    @pairChar_of_toNat c high low (by omega) (by omega) (by omega), Option.map_some]

/-- The ways a character is written. -/
inductive Escaped (c : Char) : List Char → Prop
  | letter (letter : Char) (reads : simpleEscape letter = some c) (ascii : letter.toNat < 128) :
      Escaped c ['\\', letter]
  | plain (quote : c ≠ '"') (backslash : c ≠ '\\') (printable : 0x20 ≤ c.toNat ∧ c.toNat ≤ 0x7e) : Escaped c [c]
  | unit (small : c.toNat < 0x10000) : Escaped c (unicodeEscape c.toNat)
  | pair (large : 0x10000 ≤ c.toNat) : Escaped c (unicodeEscape (0xd800 + (c.toNat - 0x10000) / 0x400) ++
      unicodeEscape (0xdc00 + (c.toNat - 0x10000) % 0x400))

theorem escaped_escape (c : Char) : Escaped c (escape c) := by
  have ofNat : ∀ value, c.toNat = value → Char.ofNat value = c := fun _ same => by rw [← same, Char.ofNat_toNat]
  unfold escape
  by_cases quote : c = '"'
  · rw [if_pos quote, quote]
    exact .letter '"' rfl (by decide)
  by_cases backslash : c = '\\'
  · rw [if_neg quote, if_pos backslash, backslash]
    exact .letter '\\' rfl (by decide)
  rw [if_neg quote, if_neg backslash]
  split
  · rename_i same
    exact .letter 'b' (congrArg some (ofNat 8 same)) (by decide)
  split
  · rename_i same
    exact .letter 'f' (congrArg some (ofNat 12 same)) (by decide)
  split
  · rename_i same
    exact .letter 'n' (congrArg some same.symm) (by decide)
  split
  · rename_i same
    exact .letter 'r' (congrArg some same.symm) (by decide)
  split
  · rename_i same
    exact .letter 't' (congrArg some same.symm) (by decide)
  split
  · rename_i printable
    exact .plain quote backslash printable
  split
  · rename_i small
    exact .unit small
  · rename_i large
    exact .pair (by omega)

theorem scanChar_letter {letter c : Char} (reads : simpleEscape letter = some c) (rest : List Char) :
    scanChar ('\\' :: letter :: rest) = some (c, rest) := by
  rw [scanChar, reads, Option.map_some]
  -- a backslash and a u stand for nothing on their own
  rintro _ _ _ _ _ rfl
  cases reads

theorem scanChar_escape (c : Char) (rest : List Char) : scanChar (escape c ++ rest) = some (c, rest) := by
  have escaped := escaped_escape c
  generalize escape c = written at escaped ⊢
  cases escaped with
  | letter letter reads ascii => exact scanChar_letter reads rest
  | unit small => exact scanChar_unicodeEscape small rest
  | pair large => exact scanChar_pair large rest
  | plain quote backslash printable =>
    have unescaped : ¬(c.toNat < 0x20 ∨ c = '\\') := by
      rintro (control | slash)
      · omega
      · exact backslash slash
    rw [List.cons_append, List.nil_append, scanChar, if_neg unescaped]
    · intro _ _ _ _ _ slash
      exact absurd slash backslash
    · intro _ _ slash
      exact absurd slash backslash

theorem escape_head (c : Char) : ∃ first more, escape c = first :: more ∧ first ≠ '"' := by
  have escaped := escaped_escape c
  generalize escape c = written at escaped ⊢
  cases escaped with
  | letter letter reads ascii => exact ⟨_, _, rfl, by decide⟩
  | plain quote backslash printable => exact ⟨_, _, rfl, quote⟩
  | unit small => exact ⟨_, _, rfl, by decide⟩
  | pair large => exact ⟨_, _, rfl, by decide⟩

theorem scanString_escaped (text rest : List Char) {fuel : Nat} (enough : text.length < fuel) :
    scanString fuel (text.flatMap escape ++ '"' :: rest) = some (text, rest) := by
  -- on the text: no escape starts with a quote, so the loop goes on
  induction text generalizing fuel with
  | nil =>
    cases fuel with
    | zero => cases enough
    | succ fuel => rfl
  | cons c more inductionHypothesis =>
    cases fuel with
    | zero => cases enough
    | succ fuel =>
      obtain ⟨first, others, shape, notQuote⟩ := escape_head c
      have scanned := scanChar_escape c (more.flatMap escape ++ '"' :: rest)
      have later := inductionHypothesis (Nat.lt_of_succ_lt_succ enough)
      rw [List.flatMap_cons, List.append_assoc]
      rw [shape, List.cons_append] at scanned ⊢
      rw [scanString.eq_3 _ _ (fun _ same => notQuote (List.cons.inj same).1), scanned]
      dsimp only
      rw [later]
      rfl

/-! ## Numbers -/

def decimal (value : Int) : List Char :=
  if value < 0 then '-' :: Nat.toDigits 10 value.natAbs else Nat.toDigits 10 value.natAbs

/-- A fraction, or nothing if no digit follows the point. -/
def scanFraction : List Char → List Char × List Char
  | '.' :: rest =>
    if rest.takeWhile Char.isDigit = [] then ([], '.' :: rest)
    else ('.' :: rest.takeWhile Char.isDigit, rest.dropWhile Char.isDigit)
  | text => ([], text)

def scanSign : List Char → List Char × List Char
  | '+' :: rest => (['+'], rest)
  | '-' :: rest => (['-'], rest)
  | text => ([], text)

/-- An exponent, or nothing if no digit follows. -/
def scanExponent : List Char → List Char × List Char
  | [] => ([], [])
  | c :: rest =>
    let (sign, unsigned) := scanSign rest
    if (c = 'e' ∨ c = 'E') ∧ unsigned.takeWhile Char.isDigit ≠ [] then
      (c :: (sign ++ unsigned.takeWhile Char.isDigit), unsigned.dropWhile Char.isDigit)
    else ([], c :: rest)

/-- The digits of an integer, which has no leading zeros. -/
def scanDigits : List Char → Option (List Char × List Char)
  | [] => none
  | c :: rest =>
    if c = '0' then some (['0'], rest)
    else if c.isDigit then some (c :: rest.takeWhile Char.isDigit, rest.dropWhile Char.isDigit)
    else none

/-- A number after its sign; `float` reads the text of one with a fraction or an exponent. -/
def scanUnsigned (float : List Char → PyFloat) (sign text : List Char) : Option (Json × List Char) :=
  (scanDigits text).map fun (digits, rest) =>
    let (fraction, rest) := scanFraction rest
    let (exponent, rest) := scanExponent rest
    if fraction = [] ∧ exponent = [] then
      (.int (if sign = [] then Nat.ofDigitChars 10 digits 0 else -(Nat.ofDigitChars 10 digits 0 : Int)), rest)
    else (.float (float (sign ++ digits ++ fraction ++ exponent)), rest)

/-- `_match_number`. -/
def scanNumber (float : List Char → PyFloat) : List Char → Option (Json × List Char)
  | '-' :: rest => scanUnsigned float ['-'] rest
  | text => scanUnsigned float [] text

/-- What can follow a value inside a text of `json.dumps`. -/
def Ends (rest : List Char) : Prop := rest = [] ∨ ∃ c more, rest = c :: more ∧ (c = ',' ∨ c = ']' ∨ c = '}')

theorem Ends.digits {rest : List Char} (ends : Ends rest) :
    rest.takeWhile Char.isDigit = [] ∧ rest.dropWhile Char.isDigit = rest := by
  rcases ends with rfl | ⟨c, more, rfl, rfl | rfl | rfl⟩
  · exact ⟨rfl, rfl⟩
  · exact ⟨rfl, rfl⟩
  · exact ⟨rfl, rfl⟩
  · exact ⟨rfl, rfl⟩

theorem Ends.scanned {rest : List Char} (ends : Ends rest) :
    scanFraction rest = ([], rest) ∧ scanExponent rest = ([], rest) := by
  rcases ends with rfl | ⟨c, more, rfl, rfl | rfl | rfl⟩
  · exact ⟨rfl, rfl⟩
  · exact ⟨rfl, by simp [scanExponent]⟩
  · exact ⟨rfl, by simp [scanExponent]⟩
  · exact ⟨rfl, by simp [scanExponent]⟩

theorem toDigits_head (value : Nat) : ∃ first more, Nat.toDigits 10 value = first :: more ∧ first.isDigit = true ∧
    (first = '0' → more = []) := by
  -- the first digit is that of a tenth of the value
  induction value using Nat.strongRecOn with
  | ind value inductionHypothesis =>
    by_cases small : value < 10
    · refine ⟨value.digitChar, [], Nat.toDigits_of_lt_base small, ?_, fun _ => rfl⟩
      rw [Nat.isDigit_digitChar]
      exact decide_eq_true small
    · obtain ⟨first, more, shape, digit, zero⟩ := inductionHypothesis (value / 10) (by omega)
      refine ⟨first, more ++ [(value % 10).digitChar], ?_, digit, ?_⟩
      · rw [Nat.toDigits_of_base_le (by decide) (by omega), shape, List.cons_append]
      · -- only zero starts with the digit zero
        intro leading
        obtain rfl := zero leading
        have isZero : Nat.ofDigitChars 10 (Nat.toDigits 10 (value / 10)) 0 = 0 := by
          rw [shape, leading]
          rfl
        rw [Nat.ofDigitChars_ten_toDigits] at isZero
        omega

theorem scanDigits_toDigits (value : Nat) {rest : List Char} (ends : Ends rest) :
    scanDigits (Nat.toDigits 10 value ++ rest) = some (Nat.toDigits 10 value, rest) := by
  obtain ⟨first, more, shape, digit, zero⟩ := toDigits_head value
  have digits : ∀ c ∈ more, c.isDigit = true := fun c member =>
    Nat.isDigit_of_mem_toDigits (b := 10) (n := value) (by decide) (by decide)
      (by rw [shape]; exact List.mem_cons_of_mem _ member)
  rw [shape, List.cons_append, scanDigits]
  by_cases leading : first = '0'
  · obtain rfl := zero leading
    rw [if_pos leading, leading, List.nil_append]
  · rw [if_neg leading, if_pos digit, List.takeWhile_append_of_pos digits, List.dropWhile_append_of_pos digits,
      ends.digits.1, ends.digits.2, List.append_nil]

theorem scanUnsigned_toDigits (float : List Char → PyFloat) (sign : List Char) (value : Nat) {rest : List Char}
    (ends : Ends rest) :
    scanUnsigned float sign (Nat.toDigits 10 value ++ rest) =
      some (.int (if sign = [] then value else -(value : Int)), rest) := by
  simp only [scanUnsigned, scanDigits_toDigits _ ends, Option.map_some, ends.scanned, and_self, ↓reduceIte,
    Nat.ofDigitChars_ten_toDigits]

theorem scanNumber_unsigned (float : List Char → PyFloat) {c : Char} (notMinus : c ≠ '-') (rest : List Char) :
    scanNumber float (c :: rest) = scanUnsigned float [] (c :: rest) :=
  scanNumber.eq_2 float _ fun _ same => notMinus (List.cons.inj same).1

theorem scanNumber_decimal (float : List Char → PyFloat) (value : Int) {rest : List Char} (ends : Ends rest) :
    scanNumber float (decimal value ++ rest) = some (.int value, rest) := by
  unfold decimal
  split
  · rename_i negative
    rw [List.cons_append, scanNumber.eq_1, scanUnsigned_toDigits float _ _ ends, if_neg (by simp)]
    have magnitude : -(value.natAbs : Int) = value := by omega
    rw [magnitude]
  · rename_i positive
    obtain ⟨first, more, shape, digit, _⟩ := toDigits_head value.natAbs
    have notMinus : first ≠ '-' := by
      rintro rfl
      cases digit
    have unsigned := scanUnsigned_toDigits float [] value.natAbs ends
    rw [shape, List.cons_append] at unsigned ⊢
    rw [scanNumber_unsigned float notMinus, unsigned, if_pos rfl]
    have magnitude : (value.natAbs : Int) = value := by omega
    rw [magnitude]

theorem scanNumber_head {float : List Char → PyFloat} {text : List Char} {result : Json × List Char}
    (scanned : scanNumber float text = some result) :
    ∃ c rest, text = c :: rest ∧ (c = '-' ∨ c.isDigit = true) := by
  cases text with
  | nil => cases scanned
  | cons c rest =>
    refine ⟨c, rest, rfl, ?_⟩
    by_cases minus : c = '-'
    · exact .inl minus
    · right
      -- `scanDigits` takes a zero or another digit, and nothing else
      by_contra other
      have zero : c ≠ '0' := by
        rintro rfl
        exact other rfl
      rw [scanNumber_unsigned float minus, scanUnsigned, scanDigits, if_neg zero, if_neg other] at scanned
      cases scanned

/-! ### Where a number stops -/

/-- What can follow a value in a text: the end, a comma, a closing bracket or white space. -/
def Stops (rest : List Char) : Prop :=
  rest = [] ∨ ∃ c more, rest = c :: more ∧ (c = ',' ∨ c = ']' ∨ c = '}' ∨ c = ' ' ∨ c = '\n')

section Stopping

variable {rest : List Char}

theorem Stops.digits (stops : Stops rest) (text : List Char) :
    (text ++ rest).takeWhile Char.isDigit = text.takeWhile Char.isDigit ∧
      (text ++ rest).dropWhile Char.isDigit = text.dropWhile Char.isDigit ++ rest := by
  induction text with
  | nil =>
    rcases stops with rfl | ⟨c, more, rfl, rfl | rfl | rfl | rfl | rfl⟩
    all_goals exact ⟨rfl, rfl⟩
  | cons c more inductionHypothesis =>
    rw [List.cons_append, List.takeWhile_cons, List.takeWhile_cons, List.dropWhile_cons, List.dropWhile_cons]
    split
    · rw [inductionHypothesis.1, inductionHypothesis.2]
      exact ⟨rfl, rfl⟩
    · exact ⟨rfl, rfl⟩

theorem Stops.fraction (stops : Stops rest) (text : List Char) :
    scanFraction (text ++ rest) = ((scanFraction text).1, (scanFraction text).2 ++ rest) := by
  cases text with
  | nil =>
    rcases stops with rfl | ⟨c, more, rfl, rfl | rfl | rfl | rfl | rfl⟩
    all_goals rfl
  | cons c more =>
    by_cases point : c = '.'
    · subst point
      obtain ⟨taken, dropped⟩ := stops.digits more
      rw [List.cons_append, scanFraction, scanFraction, taken, dropped]
      split
      · rfl
      · rfl
    · rw [List.cons_append, scanFraction.eq_2 _ fun _ same => point (List.cons.inj same).1,
        scanFraction.eq_2 _ fun _ same => point (List.cons.inj same).1]
      rfl

theorem Stops.sign (stops : Stops rest) (text : List Char) :
    scanSign (text ++ rest) = ((scanSign text).1, (scanSign text).2 ++ rest) := by
  cases text with
  | nil =>
    rcases stops with rfl | ⟨c, more, rfl, rfl | rfl | rfl | rfl | rfl⟩
    all_goals rfl
  | cons c more =>
    by_cases plus : c = '+'
    · subst plus
      rfl
    · by_cases minus : c = '-'
      · subst minus
        rfl
      · rw [List.cons_append, scanSign.eq_3 _ (fun _ same => plus (List.cons.inj same).1)
          fun _ same => minus (List.cons.inj same).1, scanSign.eq_3 _ (fun _ same => plus (List.cons.inj same).1)
          fun _ same => minus (List.cons.inj same).1]
        rfl

theorem Stops.exponent (stops : Stops rest) (text : List Char) :
    scanExponent (text ++ rest) = ((scanExponent text).1, (scanExponent text).2 ++ rest) := by
  cases text with
  | nil =>
    rcases stops with rfl | ⟨c, more, rfl, rfl | rfl | rfl | rfl | rfl⟩
    all_goals simp [scanExponent]
  | cons c more =>
    obtain ⟨taken, dropped⟩ := stops.digits (scanSign more).2
    rw [List.cons_append, scanExponent, scanExponent, stops.sign more]
    dsimp only
    rw [taken, dropped]
    split
    · rfl
    · rfl

theorem Stops.integer (stops : Stops rest) {text digits after : List Char}
    (scanned : scanDigits text = some (digits, after)) : scanDigits (text ++ rest) = some (digits, after ++ rest) := by
  cases text with
  | nil => cases scanned
  | cons c more =>
    obtain ⟨taken, dropped⟩ := stops.digits more
    rw [scanDigits] at scanned
    rw [List.cons_append, scanDigits, taken, dropped]
    split
    · rename_i zero
      rw [if_pos zero] at scanned
      cases scanned
      rfl
    · rename_i zero
      rw [if_neg zero] at scanned
      split
      · rename_i digit
        rw [if_pos digit] at scanned
        cases scanned
        rfl
      · rename_i digit
        rw [if_neg digit] at scanned
        cases scanned

theorem Stops.unsigned (stops : Stops rest) {float : List Char → PyFloat} {sign text after : List Char} {value : Json}
    (scanned : scanUnsigned float sign text = some (value, after)) :
    scanUnsigned float sign (text ++ rest) = some (value, after ++ rest) := by
  rw [scanUnsigned] at scanned
  obtain ⟨integer, read, valued⟩ := Option.map_eq_some_iff.mp scanned
  obtain ⟨digits, unread⟩ := integer
  rw [scanUnsigned, stops.integer read, Option.map_some]
  dsimp only at valued ⊢
  rw [stops.fraction unread]
  dsimp only
  rw [stops.exponent (scanFraction unread).2]
  dsimp only
  split
  · rename_i whole
    rw [if_pos whole] at valued
    cases valued
    rfl
  · rename_i broken
    rw [if_neg broken] at valued
    cases valued
    rfl

/-- A number is read up to where it stops. -/
theorem Stops.number (stops : Stops rest) {float : List Char → PyFloat} {text after : List Char} {value : Json}
    (scanned : scanNumber float text = some (value, after)) :
    scanNumber float (text ++ rest) = some (value, after ++ rest) := by
  cases text with
  | nil => cases scanned
  | cons c more =>
    by_cases minus : c = '-'
    · subst minus
      show scanUnsigned float ['-'] (more ++ rest) = _
      exact stops.unsigned scanned
    · rw [scanNumber_unsigned float minus] at scanned
      rw [List.cons_append, scanNumber_unsigned float minus]
      exact stops.unsigned scanned

end Stopping

/-! ## Documents -/

/-- `float.__repr__` and `float` on the values that floats have. -/
structure FloatText where
  double : PyFloat → Prop
  repr : PyFloat → List Char
  float : List Char → PyFloat
  reads : ∀ value rest, double value → Ends rest → scanNumber float (repr value ++ rest) = some (.float value, rest)
  ascii : ∀ value, ∀ c ∈ repr value, c.toNat < 128

/-- For documents that hold no floats, where how these look does not matter. -/
def noFloats : FloatText where
  double := fun _ => False
  repr := fun _ => []
  float := fun _ => .nan
  reads := fun _ _ impossible => impossible.elim
  ascii := fun _ _ member => by cases member

section Documents

variable (floats : FloatText)

def FloatText.chars : PyFloat → List Char
  | .nan => ['N', 'a', 'N']
  | .infinity true => ['-', 'I', 'n', 'f', 'i', 'n', 'i', 't', 'y']
  | .infinity false => ['I', 'n', 'f', 'i', 'n', 'i', 't', 'y']
  | value => floats.repr value

mutual
def dumpsChars : Json → List Char
  | .null => ['n', 'u', 'l', 'l']
  | .bool true => ['t', 'r', 'u', 'e']
  | .bool false => ['f', 'a', 'l', 's', 'e']
  | .int value => decimal value
  | .float value => floats.chars value
  | .str text => quoted text
  | .list [] => ['[', ']']
  | .list (item :: rest) => '[' :: (dumpsChars item ++ (moreItems rest ++ [']']))
  | .dict [] => ['{', '}']
  | .dict (entry :: rest) => '{' :: (entryChars entry ++ (moreEntries rest ++ ['}']))
termination_by structural document => document

def moreItems : List Json → List Char
  | [] => []
  | item :: rest => ',' :: ' ' :: (dumpsChars item ++ moreItems rest)
termination_by structural items => items

def entryChars : String × Json → List Char
  | (key, value) => quoted key ++ (':' :: ' ' :: dumpsChars value)
termination_by structural entry => entry

def moreEntries : List (String × Json) → List Char
  | [] => []
  | entry :: rest => ',' :: ' ' :: (entryChars entry ++ moreEntries rest)
termination_by structural entries => entries
end

/-- `json.dumps`. -/
def dumps (document : Json) : String := String.ofList (dumpsChars floats document)

/-! ### Layouts -/

/-- The white space of a text at each depth: after an opening bracket, after a comma and before
a closing bracket. -/
structure Layout where
  opening : Nat → List Char
  between : Nat → List Char
  closing : Nat → List Char
  blank : ∀ level, ∀ c ∈ opening level ++ (between level ++ closing level), c = ' ' ∨ c = '\n'

section Layouts

variable (layout : Layout)

mutual
def laidOut : Json → (level : Nat) → List Char
  | .list [], _ => ['[', ']']
  | .list (item :: rest), level =>
    '[' :: (layout.opening level ++ (laidOut item (level + 1) ++
      (laidOutItems rest level ++ (layout.closing level ++ [']']))))
  | .dict [], _ => ['{', '}']
  | .dict (entry :: rest), level =>
    '{' :: (layout.opening level ++ (laidOutEntry entry (level + 1) ++
      (laidOutEntries rest level ++ (layout.closing level ++ ['}']))))
  | document, _ => dumpsChars floats document
termination_by structural document => document

def laidOutItems : List Json → (level : Nat) → List Char
  | [], _ => []
  | item :: rest, level => ',' :: (layout.between level ++ (laidOut item (level + 1) ++ laidOutItems rest level))
termination_by structural items => items

def laidOutEntry : String × Json → (level : Nat) → List Char
  | (key, value), level => quoted key ++ (':' :: ' ' :: laidOut value level)
termination_by structural entry => entry

def laidOutEntries : List (String × Json) → (level : Nat) → List Char
  | [], _ => []
  | entry :: rest, level =>
    ',' :: (layout.between level ++ (laidOutEntry entry (level + 1) ++ laidOutEntries rest level))
termination_by structural entries => entries
end

end Layouts

/-- Everything on one line. -/
def compact : Layout where
  opening := fun _ => []
  between := fun _ => [' ']
  closing := fun _ => []
  blank := fun _ _ member => .inl (List.mem_singleton.mp member)

/-- `indent=2`: a line for every item and every entry. -/
def indented : Layout where
  opening := fun level => '\n' :: List.replicate (2 * (level + 1)) ' '
  between := fun level => '\n' :: List.replicate (2 * (level + 1)) ' '
  closing := fun level => '\n' :: List.replicate (2 * level) ' '
  blank := by
    intro level c member
    simp only [List.mem_append, List.mem_cons, List.mem_replicate] at member
    rcases member with (newline | ⟨_, space⟩) | (newline | ⟨_, space⟩) | newline | ⟨_, space⟩
    all_goals first
      | exact .inl space
      | exact .inr newline

/-- `json.dumps` with `indent=2`. -/
def dumpsIndented (document : Json) : String := String.ofList (laidOut floats indented document 0)

mutual
theorem laidOut_compact (document : Json) (level : Nat) :
    laidOut floats compact document level = dumpsChars floats document := by
  cases document with
  | list items =>
    cases items with
    | nil => rfl
    | cons item rest =>
      rw [laidOut, dumpsChars, laidOut_compact item, laidOutItems_compact rest]
      rfl
  | dict entries =>
    cases entries with
    | nil => rfl
    | cons entry rest =>
      rw [laidOut, dumpsChars, laidOutEntry_compact entry, laidOutEntries_compact rest]
      rfl
  | _ => rfl
termination_by structural document

theorem laidOutItems_compact (items : List Json) (level : Nat) :
    laidOutItems floats compact items level = moreItems floats items := by
  cases items with
  | nil => rfl
  | cons item rest =>
    rw [laidOutItems, moreItems, laidOut_compact item, laidOutItems_compact rest]
    rfl
termination_by structural items

theorem laidOutEntry_compact (entry : String × Json) (level : Nat) :
    laidOutEntry floats compact entry level = entryChars floats entry := by
  obtain ⟨key, value⟩ := entry
  rw [laidOutEntry, entryChars, laidOut_compact value]
termination_by structural entry

theorem laidOutEntries_compact (entries : List (String × Json)) (level : Nat) :
    laidOutEntries floats compact entries level = moreEntries floats entries := by
  cases entries with
  | nil => rfl
  | cons entry rest =>
    rw [laidOutEntries, moreEntries, laidOutEntry_compact entry, laidOutEntries_compact rest]
    rfl
termination_by structural entries
end

/-! ### Reading -/

def isSpace (c : Char) : Bool := c = ' ' ∨ c = '\t' ∨ c = '\n' ∨ c = '\r'

def skip (text : List Char) : List Char := text.dropWhile isSpace

section Scanner

variable (float : List Char → PyFloat)

mutual
/-- `_scan_once`: the value at the start of a text and what follows it.  A value inside a
list or an object is one level of fuel below the loop that reads it. -/
def scanOnce : (fuel : Nat) → List Char → Option (Json × List Char)
  | 0, _ => none
  | fuel + 1, text =>
    match text with
    | '"' :: rest => (scanString rest.length rest).map fun (text, after) => (.str (String.ofList text), after)
    | '{' :: rest =>
      match skip rest with
      | '}' :: after => some (.dict [], after)
      | entries =>
        (scanEntries fuel entries).map fun (entries, after) =>
          -- a key that comes again overwrites its value in place
          (.dict (entries.foldl (fun members entry => Dict.set members entry.1 entry.2) []), after)
    | '[' :: rest =>
      match skip rest with
      | ']' :: after => some (.list [], after)
      | items => (scanItems fuel items).map fun (items, after) => (.list items, after)
    | 'n' :: 'u' :: 'l' :: 'l' :: rest => some (.null, rest)
    | 't' :: 'r' :: 'u' :: 'e' :: rest => some (.bool true, rest)
    | 'f' :: 'a' :: 'l' :: 's' :: 'e' :: rest => some (.bool false, rest)
    | 'N' :: 'a' :: 'N' :: rest => some (.float .nan, rest)
    | 'I' :: 'n' :: 'f' :: 'i' :: 'n' :: 'i' :: 't' :: 'y' :: rest => some (.float (.infinity false), rest)
    | '-' :: 'I' :: 'n' :: 'f' :: 'i' :: 'n' :: 'i' :: 't' :: 'y' :: rest => some (.float (.infinity true), rest)
    | text => scanNumber float text
termination_by structural fuel => fuel

def scanItems : (fuel : Nat) → List Char → Option (List Json × List Char)
  | 0, _ => none
  | fuel + 1, text =>
    match scanOnce fuel text with
    | none => none
    | some (item, rest) =>
      match skip rest with
      | ']' :: after => some ([item], after)
      | ',' :: more => (scanItems fuel (skip more)).map fun (items, after) => (item :: items, after)
      | _ => none
termination_by structural fuel => fuel

def scanEntries : (fuel : Nat) → List Char → Option (List (String × Json) × List Char)
  | 0, _ => none
  | fuel + 1, '"' :: text =>
    match scanString text.length text with
    | none => none
    | some (key, rest) =>
      match skip rest with
      | ':' :: rest =>
        match scanOnce fuel (skip rest) with
        | none => none
        | some (value, rest) =>
          match skip rest with
          | '}' :: after => some ([(String.ofList key, value)], after)
          | ',' :: more =>
            (scanEntries fuel (skip more)).map fun (entries, after) => ((String.ofList key, value) :: entries, after)
          | _ => none
      | _ => none
  | _ + 1, _ => none
termination_by structural fuel => fuel
end

/-- `json.loads`; `none` is a `JSONDecodeError`. -/
def loads (text : String) : Option Json :=
  match scanOnce float (2 * text.toList.length + 2) (skip text.toList) with
  -- nothing but white space may follow
  | some (document, rest) => if skip rest = [] then some document else none
  | none => none

end Scanner

/-! ### What is written is read back -/

section RoundTrip

mutual
/-- A document as Python can have one: floats have values of floats, and no dictionary has a
key twice. -/
def Writable : Json → Prop
  | .float .nan => True
  | .float (.infinity _) => True
  | .float value => floats.double value
  | .list items => ItemsWritable items
  | .dict entries => (entries.map Prod.fst).Nodup ∧ EntriesWritable entries
  | _ => True
termination_by structural document => document

def ItemsWritable : List Json → Prop
  | [] => True
  | item :: rest => Writable item ∧ ItemsWritable rest
termination_by structural items => items

def EntryWritable : String × Json → Prop
  | (_, value) => Writable value
termination_by structural entry => entry

def EntriesWritable : List (String × Json) → Prop
  | [] => True
  | entry :: rest => EntryWritable entry ∧ EntriesWritable rest
termination_by structural entries => entries
end

variable {floats}

theorem entryWritable_iff {entry : String × Json} : EntryWritable floats entry ↔ Writable floats entry.2 := by
  obtain ⟨key, value⟩ := entry
  exact Iff.rfl

theorem EntriesWritable.get {entries : Dict Json} {key : String} {value : Json}
    (writable : EntriesWritable floats entries) (found : Dict.get entries key = some value) : Writable floats value := by
  induction entries with
  | nil => cases found
  | cons entry rest inductionHypothesis =>
    obtain ⟨other, old⟩ := entry
    rw [Dict.get_cons] at found
    split at found
    · cases found
      exact writable.1
    · exact inductionHypothesis writable.2 found

theorem EntriesWritable.set {entries : Dict Json} {key : String} {value : Json}
    (writable : EntriesWritable floats entries) (written : Writable floats value) :
    EntriesWritable floats (Dict.set entries key value) := by
  induction entries with
  | nil => exact ⟨written, trivial⟩
  | cons entry rest inductionHypothesis =>
    obtain ⟨other, old⟩ := entry
    rw [Dict.set]
    split
    · exact ⟨written, writable.2⟩
    · exact ⟨writable.1, inductionHypothesis writable.2⟩

theorem writable_getItem {document value : Json} {key : String} (writable : Writable floats document)
    (read : document.getItem key = .ok value) : Writable floats value := by
  cases document with
  | dict entries =>
    exact writable.2.get (Json.getItem_dict_eq_ok.mp read)
  | _ => cases read

/-- Followed by what can follow a value, the text is read as the document. -/
def ReadsBack (floats : FloatText) (text : List Char) (document : Json) : Prop :=
  ∀ fuel rest, text.length ≤ fuel → Stops rest → scanOnce floats.float fuel (text ++ rest) = some (document, rest)

/-- The first character of a value: no space, and no closing bracket. -/
def Opens (text : List Char) : Prop :=
  ∃ c more, text = c :: more ∧ isSpace c = false ∧ c ≠ ']' ∧ c ≠ '}'

theorem Opens.skip {text : List Char} (opens : Opens text) (rest : List Char) : skip (text ++ rest) = text ++ rest := by
  obtain ⟨c, more, rfl, notSpace, _⟩ := opens
  rw [JsonText.skip, List.cons_append, List.dropWhile_cons, notSpace]
  rfl

theorem opens_of_number {c : Char} (number : c = '-' ∨ c.isDigit = true) (more : List Char) : Opens (c :: more) := by
  refine ⟨c, more, rfl, ?_⟩
  cases number with
  | inl minus =>
    subst minus
    decide
  | inr digit =>
    have different : ∀ other : Char, other.isDigit = false → c ≠ other := by
      rintro other notDigit rfl
      rw [digit] at notDigit
      cases notDigit
    refine ⟨?_, different _ rfl, different _ rfl⟩
    simp [isSpace, different ' ' rfl, different '\t' rfl, different '\n' rfl, different '\r' rfl]

theorem opens_decimal (value : Int) : Opens (decimal value) := by
  obtain ⟨c, rest, shape, number⟩ := scanNumber_head (scanNumber_decimal (fun _ => .nan) value (.inl rfl : Ends []))
  rw [List.append_nil] at shape
  rw [shape]
  exact opens_of_number number rest

theorem opens_repr {value : PyFloat} (double : floats.double value) : Opens (floats.repr value) := by
  obtain ⟨c, rest, shape, number⟩ := scanNumber_head (floats.reads value [] double (.inl rfl))
  rw [List.append_nil] at shape
  rw [shape]
  exact opens_of_number number rest

theorem opens_quoted (text : String) : Opens (quoted text) :=
  ⟨'"', _, rfl, by decide, by decide, by decide⟩

theorem opens_laidOut {layout : Layout} {document : Json} (writable : Writable floats document) (level : Nat) :
    Opens (laidOut floats layout document level) := by
  cases document with
  | null => exact ⟨_, _, rfl, by decide, by decide, by decide⟩
  | bool value =>
    cases value with
    | true => exact ⟨_, _, rfl, by decide, by decide, by decide⟩
    | false => exact ⟨_, _, rfl, by decide, by decide, by decide⟩
  | int value => exact opens_decimal value
  | float value =>
    cases value with
    | nan => exact ⟨_, _, rfl, by decide, by decide, by decide⟩
    | infinity negative =>
      cases negative with
      | true => exact ⟨_, _, rfl, by decide, by decide, by decide⟩
      | false => exact ⟨_, _, rfl, by decide, by decide, by decide⟩
    | negativeZero => exact opens_repr writable
    | finite value => exact opens_repr writable
  | str text => exact opens_quoted text
  | list items =>
    cases items with
    | nil => exact ⟨_, _, rfl, by decide, by decide, by decide⟩
    | cons item rest => exact ⟨_, _, rfl, by decide, by decide, by decide⟩
  | dict entries =>
    cases entries with
    | nil => exact ⟨_, _, rfl, by decide, by decide, by decide⟩
    | cons entry rest => exact ⟨_, _, rfl, by decide, by decide, by decide⟩

theorem opens_dumps {document : Json} (writable : Writable floats document) : Opens (dumpsChars floats document) :=
  laidOut_compact floats document 0 ▸ opens_laidOut writable 0

theorem opens_laidOutEntry {layout : Layout} (entry : String × Json) (level : Nat) :
    Opens (laidOutEntry floats layout entry level) := by
  obtain ⟨key, value⟩ := entry
  exact ⟨'"', _, rfl, by decide, by decide, by decide⟩

/-- A text that a number starts is read as one. -/
theorem scanOnce_number {float : List Char → PyFloat} {text : List Char} {result : Json × List Char} (fuel : Nat)
    (scanned : scanNumber float text = some result) : scanOnce float (fuel + 1) text = some result := by
  obtain ⟨c, rest, rfl, number⟩ := scanNumber_head scanned
  have different : ∀ other : Char, other ≠ '-' → other.isDigit = false → c ≠ other := by
    rintro other notMinus notDigit rfl
    cases number with
    | inl minus => exact notMinus minus
    | inr digit =>
      rw [digit] at notDigit
      cases notDigit
  -- of the words only `-Infinity` starts like a number
  have noInfinity : ∀ more, c :: rest ≠ '-' :: 'I' :: more := by
    intro more shape
    obtain ⟨rfl, rfl⟩ := List.cons.inj shape
    rw [scanNumber, scanUnsigned, scanDigits] at scanned
    simp at scanned
  rw [scanOnce]
  case x_10 => exact fun more => noInfinity _
  exact scanned
  all_goals
    intro _ shape
    exact different _ (by decide) (by decide) (List.cons.inj shape).1

theorem length_flatMap_escape (text : List Char) : text.length ≤ (text.flatMap escape).length := by
  induction text with
  | nil => exact Nat.le_refl _
  | cons c rest inductionHypothesis =>
    obtain ⟨first, more, shape, _⟩ := escape_head c
    rw [List.flatMap_cons, List.length_append, shape]
    simp only [List.length_cons]
    omega

/-- After its opening quote a string is read back whatever follows it. -/
theorem scanString_quoted (text : String) (rest : List Char) :
    scanString (text.toList.flatMap escape ++ '"' :: rest).length (text.toList.flatMap escape ++ '"' :: rest) =
      some (text.toList, rest) := by
  apply scanString_escaped
  have long := length_flatMap_escape text.toList
  simp only [List.length_append, List.length_cons]
  omega

theorem quoted_append (text : String) (rest : List Char) :
    quoted text ++ rest = '"' :: (text.toList.flatMap escape ++ '"' :: rest) := by
  rw [quoted, List.cons_append, List.append_assoc]
  rfl

theorem foldl_set (entries : Dict Json) (members : Dict Json)
    (names : ((members ++ entries).map Prod.fst).Nodup) :
    entries.foldl (fun members entry => Dict.set members entry.1 entry.2) members = members ++ entries := by
  induction entries generalizing members with
  | nil => rw [List.foldl_nil, List.append_nil]
  | cons entry rest inductionHypothesis =>
    have fresh : Dict.set members entry.1 entry.2 = members ++ [entry] := by
      have absent : entry.1 ∉ members.map Prod.fst := by
        rw [List.map_append, List.map_cons, List.nodup_append] at names
        exact fun member => names.2.2 _ member _ List.mem_cons_self rfl
      clear inductionHypothesis names
      induction members with
      | nil => rfl
      | cons head others appended =>
        rw [List.map_cons, List.mem_cons, not_or] at absent
        rw [Dict.set, if_neg (Ne.symm absent.1), appended absent.2]
        rfl
    rw [List.foldl_cons, fresh, inductionHypothesis _ (by rwa [List.append_assoc]), List.append_assoc]
    rfl

theorem stops_comma (more : List Char) : Stops (',' :: more) := .inr ⟨_, _, rfl, .inl rfl⟩

theorem skip_cons {c : Char} (notSpace : isSpace c = false) (more : List Char) : skip (c :: more) = c :: more := by
  rw [skip, List.dropWhile_cons, notSpace]
  rfl

theorem skip_space (more : List Char) : skip (' ' :: more) = skip more := by
  rw [skip, List.dropWhile_cons]
  rfl

theorem skip_blank {blank : List Char} (allBlank : ∀ c ∈ blank, c = ' ' ∨ c = '\n') (rest : List Char) :
    skip (blank ++ rest) = skip rest := by
  induction blank with
  | nil => rfl
  | cons c more inductionHypothesis =>
    have later := inductionHypothesis fun other member => allBlank other (List.mem_cons_of_mem _ member)
    rw [List.cons_append, skip, List.dropWhile_cons]
    cases allBlank c List.mem_cons_self with
    | inl space =>
      subst space
      exact later
    | inr newline =>
      subst newline
      exact later

section Layouts

variable {layout : Layout}

theorem Layout.skip_opening (level : Nat) {text : List Char} (opens : Opens text) (rest : List Char) :
    skip (layout.opening level ++ (text ++ rest)) = text ++ rest := by
  rw [skip_blank fun c member => layout.blank level c (List.mem_append_left _ member), opens.skip]

theorem Layout.skip_between (level : Nat) {text : List Char} (opens : Opens text) (rest : List Char) :
    skip (layout.between level ++ (text ++ rest)) = text ++ rest := by
  rw [skip_blank fun c member => layout.blank level c (List.mem_append_right _ (List.mem_append_left _ member)),
    opens.skip]

theorem Layout.skip_closing (level : Nat) {c : Char} (notSpace : isSpace c = false) (rest : List Char) :
    skip (layout.closing level ++ c :: rest) = c :: rest := by
  rw [skip_blank fun c member => layout.blank level c (List.mem_append_right _ (List.mem_append_right _ member)),
    skip_cons notSpace]

/-- What comes before a closing bracket stops a value, and so does the bracket. -/
theorem Layout.stops_closing (level : Nat) {c : Char} (bracket : c = ']' ∨ c = '}') (rest : List Char) :
    Stops (layout.closing level ++ c :: rest) := by
  cases shape : layout.closing level with
  | nil => exact .inr ⟨_, _, rfl, .inr (bracket.imp_right .inl)⟩
  | cons first more =>
    have blank := layout.blank level first (List.mem_append_right _ (List.mem_append_right _ (by simp [shape])))
    exact .inr ⟨_, _, rfl, .inr (.inr (.inr blank))⟩

/-- The loop over the items of a list, from a first item on that is read back itself. -/
def ItemsReadBack (floats : FloatText) (layout : Layout) (level : Nat) (items : List Json) : Prop :=
  ∀ first text fuel rest, ReadsBack floats text first →
    (text ++ laidOutItems floats layout items level).length < fuel →
    scanItems floats.float fuel (text ++ (laidOutItems floats layout items level ++
      (layout.closing level ++ ']' :: rest))) = some (first :: items, rest)

/-- The loop over the entries of an object. -/
def EntriesReadBack (floats : FloatText) (layout : Layout) (level : Nat) (entries : List (String × Json)) : Prop :=
  ∀ first fuel rest, ReadsBack floats (laidOut floats layout first.2 (level + 1)) first.2 → Writable floats first.2 →
    (laidOutEntry floats layout first (level + 1) ++ laidOutEntries floats layout entries level).length < fuel →
    scanEntries floats.float fuel (laidOutEntry floats layout first (level + 1) ++
      (laidOutEntries floats layout entries level ++ (layout.closing level ++ '}' :: rest))) =
      some (first :: entries, rest)

theorem itemsReadBack_nil (level : Nat) : ItemsReadBack floats layout level [] := by
  intro first text fuel rest firstReads enough
  cases fuel with
  | zero => cases enough
  | succ fuel =>
    simp only [laidOutItems, List.append_nil] at enough
    rw [scanItems, laidOutItems, List.nil_append,
      firstReads fuel _ (by omega) (layout.stops_closing level (.inl rfl) rest)]
    dsimp only
    rw [layout.skip_closing level (by decide)]
    rfl

theorem ItemsReadBack.cons {level : Nat} {item : Json} {items : List Json} (writable : Writable floats item)
    (itemReads : ReadsBack floats (laidOut floats layout item (level + 1)) item)
    (itemsRead : ItemsReadBack floats layout level items) : ItemsReadBack floats layout level (item :: items) := by
  intro first text fuel rest firstReads enough
  cases fuel with
  | zero => cases enough
  | succ fuel =>
    simp only [laidOutItems, List.length_append, List.length_cons] at enough
    have later := itemsRead item _ fuel rest itemReads (by rw [List.length_append]; omega)
    have start := layout.skip_between level (@opens_laidOut floats layout item writable (level + 1))
      (laidOutItems floats layout items level ++ (layout.closing level ++ ']' :: rest))
    rw [scanItems, laidOutItems, List.cons_append, List.append_assoc, List.append_assoc,
      firstReads fuel _ (by omega) (stops_comma _)]
    dsimp only
    rw [skip_cons (by decide)]
    show (scanItems floats.float fuel (skip _)).map _ = _
    rw [start, later]
    rfl

/-- One turn of the loop over the entries of an object. -/
theorem scanEntries_first {first : String × Json} {level fuel : Nat} {rest : List Char}
    (reads : ReadsBack floats (laidOut floats layout first.2 level) first.2) (writable : Writable floats first.2)
    (enough : (laidOut floats layout first.2 level).length ≤ fuel) (stops : Stops rest) :
    scanEntries floats.float (fuel + 1) (laidOutEntry floats layout first level ++ rest) =
      match skip rest with
      | '}' :: after => some ([first], after)
      | ',' :: more => (scanEntries floats.float fuel (skip more)).map fun (entries, after) => (first :: entries, after)
      | _ => none := by
  obtain ⟨key, value⟩ := first
  have read := reads fuel rest enough stops
  have start : skip (' ' :: (laidOut floats layout value level ++ rest)) = laidOut floats layout value level ++ rest := by
    rw [skip_space, (opens_laidOut writable level).skip]
  rw [laidOutEntry, List.append_assoc, List.cons_append, List.cons_append, quoted_append, scanEntries,
    scanString_quoted]
  simp only [skip_cons (show isSpace ':' = false by decide), start, read, String.ofList_toList]

theorem length_laidOutEntry (floats : FloatText) (layout : Layout) (entry : String × Json) (level : Nat) :
    (laidOut floats layout entry.2 level).length ≤ (laidOutEntry floats layout entry level).length := by
  obtain ⟨key, value⟩ := entry
  simp only [laidOutEntry, List.length_append, List.length_cons]
  omega

theorem entriesReadBack_nil (level : Nat) : EntriesReadBack floats layout level [] := by
  intro first fuel rest firstReads writable enough
  cases fuel with
  | zero => cases enough
  | succ fuel =>
    have value := length_laidOutEntry floats layout first (level + 1)
    simp only [laidOutEntries, List.append_nil] at enough
    rw [laidOutEntries, List.nil_append, scanEntries_first firstReads writable (by omega)
      (layout.stops_closing level (.inr rfl) rest), layout.skip_closing level (by decide)]
    rfl

theorem EntriesReadBack.cons {level : Nat} {entry : String × Json} {entries : List (String × Json)}
    (writable : Writable floats entry.2)
    (entryReads : ReadsBack floats (laidOut floats layout entry.2 (level + 1)) entry.2)
    (entriesRead : EntriesReadBack floats layout level entries) :
    EntriesReadBack floats layout level (entry :: entries) := by
  intro first fuel rest firstReads firstWritable enough
  cases fuel with
  | zero => cases enough
  | succ fuel =>
    have value := length_laidOutEntry floats layout first (level + 1)
    simp only [laidOutEntries, List.length_append, List.length_cons] at enough
    have later := entriesRead entry fuel rest entryReads writable (by rw [List.length_append]; omega)
    have start := layout.skip_between level (@opens_laidOutEntry floats layout entry (level + 1))
      (laidOutEntries floats layout entries level ++ (layout.closing level ++ '}' :: rest))
    rw [laidOutEntries, List.cons_append, List.append_assoc, List.append_assoc,
      scanEntries_first firstReads firstWritable (by omega) (stops_comma _), skip_cons (by decide)]
    show (scanEntries floats.float fuel (skip _)).map _ = _
    rw [start, later]
    rfl

theorem scanOnce_bracket {float : List Char → PyFloat} {text : List Char} (fuel level : Nat) (opens : Opens text)
    (rest : List Char) :
    scanOnce float (fuel + 1) ('[' :: (layout.opening level ++ (text ++ rest))) =
      (scanItems float fuel (text ++ rest)).map fun (items, after) => (.list items, after) := by
  have start := layout.skip_opening level opens rest
  obtain ⟨c, more, rfl, _, notBracket, _⟩ := opens
  rw [scanOnce, start]
  split
  · rename_i shape
    exact absurd (List.cons.inj shape).1 notBracket
  · rfl

theorem scanOnce_brace {float : List Char → PyFloat} {text : List Char} (fuel level : Nat) (opens : Opens text)
    (rest : List Char) :
    scanOnce float (fuel + 1) ('{' :: (layout.opening level ++ (text ++ rest))) =
      (scanEntries float fuel (text ++ rest)).map fun (entries, after) =>
        (.dict (entries.foldl (fun members entry => Dict.set members entry.1 entry.2) []), after) := by
  have start := layout.skip_opening level opens rest
  obtain ⟨c, more, rfl, _, _, notBrace⟩ := opens
  rw [scanOnce, start]
  split
  · rename_i shape
    exact absurd (List.cons.inj shape).1 notBrace
  · rfl

/-- Numbers are read back wherever they stop. -/
theorem scanOnce_decimal (value : Int) (fuel : Nat) {rest : List Char} (stops : Stops rest) :
    scanOnce floats.float (fuel + 1) (decimal value ++ rest) = some (.int value, rest) := by
  have alone := scanNumber_decimal floats.float value (.inl rfl : Ends [])
  rw [List.append_nil] at alone
  exact scanOnce_number fuel (stops.number alone)

theorem scanOnce_repr {value : PyFloat} (double : floats.double value) (fuel : Nat) {rest : List Char}
    (stops : Stops rest) : scanOnce floats.float (fuel + 1) (floats.repr value ++ rest) = some (.float value, rest) := by
  have alone := floats.reads value [] double (.inl rfl)
  rw [List.append_nil] at alone
  exact scanOnce_number fuel (stops.number alone)

mutual
/-- In every layout, a document is read back from its text. -/
theorem readsBack (document : Json) (writable : Writable floats document) (level : Nat) :
    ReadsBack floats (laidOut floats layout document level) document := by
  intro fuel rest enough stops
  cases fuel with
  | zero =>
    obtain ⟨c, more, shape, _⟩ := @opens_laidOut floats layout document writable level
    rw [shape] at enough
    cases enough
  | succ fuel =>
    match document, writable, enough with
    | .null, _, _ => rfl
    | .bool true, _, _ => rfl
    | .bool false, _, _ => rfl
    | .int value, _, _ => exact scanOnce_decimal value fuel stops
    | .float .nan, _, _ => rfl
    | .float (.infinity true), _, _ => rfl
    | .float (.infinity false), _, _ => rfl
    | .float .negativeZero, double, _ => exact scanOnce_repr double fuel stops
    | .float (.finite value), double, _ => exact scanOnce_repr double fuel stops
    | .str text, _, _ =>
      rw [laidOut, dumpsChars, quoted_append, scanOnce, scanString_quoted, Option.map_some]
      dsimp only
      rw [String.ofList_toList]
      all_goals simp
    | .list [], _, _ => rfl
    | .list (item :: items), writable, enough =>
      have itemReads := readsBack item writable.1 (level + 1)
      have itemsRead := itemsReadBack items writable.2 level
      simp only [laidOut, List.length_cons, List.length_append, List.length_nil] at enough
      have scanned := itemsRead item _ fuel rest itemReads (by rw [List.length_append]; omega)
      simp only [laidOut, List.cons_append, List.append_assoc, List.nil_append]
      rw [scanOnce_bracket fuel level (opens_laidOut writable.1 (level + 1)), scanned]
      rfl
    | .dict [], _, _ => rfl
    | .dict (entry :: entries), writable, enough =>
      have entryReads := entryReadsBack entry writable.2.1 (level + 1)
      have entriesRead := entriesReadBack entries writable.2.2 level
      simp only [laidOut, List.length_cons, List.length_append, List.length_nil] at enough
      have scanned := entriesRead entry fuel rest entryReads (entryWritable_iff.mp writable.2.1)
        (by rw [List.length_append]; omega)
      simp only [laidOut, List.cons_append, List.append_assoc, List.nil_append]
      rw [scanOnce_brace fuel level (opens_laidOutEntry entry (level + 1)), scanned, Option.map_some]
      have members := foldl_set (entry :: entries) [] writable.1
      rw [List.nil_append] at members
      dsimp only
      rw [members]
termination_by structural document

theorem itemsReadBack (items : List Json) (writable : ItemsWritable floats items) (level : Nat) :
    ItemsReadBack floats layout level items := by
  match items, writable with
  | [], _ => exact itemsReadBack_nil level
  | item :: rest, writable =>
    exact .cons writable.1 (readsBack item writable.1 (level + 1)) (itemsReadBack rest writable.2 level)
termination_by structural items

theorem entryReadsBack (entry : String × Json) (writable : EntryWritable floats entry) (level : Nat) :
    ReadsBack floats (laidOut floats layout entry.2 level) entry.2 := by
  obtain ⟨key, value⟩ := entry
  exact readsBack value writable level
termination_by structural entry

theorem entriesReadBack (entries : List (String × Json)) (writable : EntriesWritable floats entries) (level : Nat) :
    EntriesReadBack floats layout level entries := by
  match entries, writable with
  | [], _ => exact entriesReadBack_nil level
  | entry :: rest, writable =>
    exact .cons (entryWritable_iff.mp writable.1) (entryReadsBack entry writable.1 (level + 1))
      (entriesReadBack rest writable.2 level)
termination_by structural entries
end

theorem loads_laidOut {document : Json} (writable : Writable floats document) :
    loads floats.float (String.ofList (laidOut floats layout document 0)) = some document := by
  have start := (@opens_laidOut floats layout document writable 0).skip []
  rw [List.append_nil] at start
  have read := @readsBack floats layout document writable 0 (2 * (laidOut floats layout document 0).length + 2) []
    (by omega) (.inl rfl)
  rw [List.append_nil] at read
  rw [loads, String.toList_ofList, start, read]
  rfl

end Layouts

/-- `json.loads(json.dumps(document)) == document`. -/
theorem loads_dumps {document : Json} (writable : Writable floats document) :
    loads floats.float (dumps floats document) = some document := by
  have read := @loads_laidOut floats compact document writable
  rwa [laidOut_compact] at read

/-- `json.loads(json.dumps(document, indent=2)) == document`. -/
theorem loads_dumpsIndented {document : Json} (writable : Writable floats document) :
    loads floats.float (dumpsIndented floats document) = some document := loads_laidOut writable

/-! ### The text is ASCII -/

def Ascii (text : List Char) : Prop := ∀ c ∈ text, c.toNat < 128

theorem Ascii.append {first second : List Char} (left : Ascii first) (right : Ascii second) :
    Ascii (first ++ second) := by
  intro c member
  cases List.mem_append.mp member with
  | inl inFirst => exact left c inFirst
  | inr inSecond => exact right c inSecond

theorem Ascii.cons {c : Char} {text : List Char} (head : c.toNat < 128) (tail : Ascii text) : Ascii (c :: text) := by
  intro other member
  cases List.mem_cons.mp member with
  | inl first =>
    rw [first]
    exact head
  | inr later => exact tail other later

theorem ascii_of_all {text : List Char} (all : text.all (fun c => decide (c.toNat < 128)) = true) : Ascii text := by
  intro c member
  exact of_decide_eq_true (List.all_eq_true.mp all c member)

theorem ascii_digits (value : Nat) : Ascii (Nat.toDigits 10 value) := by
  intro c member
  have digit := Nat.isDigit_of_mem_toDigits (by decide) (by decide) member
  have range := Char.isDigit_iff_toNat.mp digit
  have nine : '9'.toNat = 57 := rfl
  omega

theorem ascii_decimal (value : Int) : Ascii (decimal value) := by
  unfold decimal
  split
  · exact .cons (by decide) (ascii_digits _)
  · exact ascii_digits _

theorem ascii_unicodeEscape (unit : Nat) : Ascii (unicodeEscape unit) := by
  have digits : ∀ digit < 16, (Nat.digitChar digit).toNat < 128 := by decide
  refine .cons (by decide) (.cons (by decide) (.cons ?_ (.cons ?_ (.cons ?_ (.cons ?_ ?_)))))
  · exact digits _ (Nat.mod_lt _ (by decide))
  · exact digits _ (Nat.mod_lt _ (by decide))
  · exact digits _ (Nat.mod_lt _ (by decide))
  · exact digits _ (Nat.mod_lt _ (by decide))
  · simp [Ascii]

theorem ascii_escape (c : Char) : Ascii (escape c) := by
  have escaped := escaped_escape c
  generalize escape c = written at escaped ⊢
  cases escaped with
  | letter letter reads ascii => exact .cons (by decide) (.cons ascii (ascii_of_all rfl))
  | plain quote backslash printable => exact .cons (by omega) (ascii_of_all rfl)
  | unit small => exact ascii_unicodeEscape _
  | pair large => exact (ascii_unicodeEscape _).append (ascii_unicodeEscape _)

theorem ascii_quoted (text : String) : Ascii (quoted text) := by
  refine .cons (by decide) (.append ?_ (ascii_of_all rfl))
  intro c member
  obtain ⟨source, _, escaped⟩ := List.mem_flatMap.mp member
  exact ascii_escape source c escaped

theorem ascii_floats (value : PyFloat) : Ascii (floats.chars value) := by
  cases value with
  | nan => exact ascii_of_all rfl
  | infinity negative =>
    cases negative with
    | true => exact ascii_of_all rfl
    | false => exact ascii_of_all rfl
  | negativeZero => exact floats.ascii _
  | finite value => exact floats.ascii _

mutual
theorem ascii_dumps (document : Json) : Ascii (dumpsChars floats document) := by
  match document with
  | .null => exact ascii_of_all rfl
  | .bool true => exact ascii_of_all rfl
  | .bool false => exact ascii_of_all rfl
  | .int value => exact ascii_decimal value
  | .float value => exact ascii_floats value
  | .str text => exact ascii_quoted text
  | .list [] => exact ascii_of_all rfl
  | .list (item :: rest) =>
    exact .cons (by decide) ((ascii_dumps item).append ((ascii_moreItems rest).append (ascii_of_all rfl)))
  | .dict [] => exact ascii_of_all rfl
  | .dict (entry :: rest) =>
    exact .cons (by decide) ((ascii_entryChars entry).append ((ascii_moreEntries rest).append (ascii_of_all rfl)))
termination_by structural document

theorem ascii_moreItems (items : List Json) : Ascii (moreItems floats items) := by
  match items with
  | [] => exact ascii_of_all rfl
  | item :: rest => exact .cons (by decide) (.cons (by decide) ((ascii_dumps item).append (ascii_moreItems rest)))
termination_by structural items

theorem ascii_entryChars (entry : String × Json) : Ascii (entryChars floats entry) := by
  obtain ⟨key, value⟩ := entry
  exact (ascii_quoted key).append (.cons (by decide) (.cons (by decide) (ascii_dumps value)))
termination_by structural entry

theorem ascii_moreEntries (entries : List (String × Json)) : Ascii (moreEntries floats entries) := by
  match entries with
  | [] => exact ascii_of_all rfl
  | entry :: rest =>
    exact .cons (by decide) (.cons (by decide) ((ascii_entryChars entry).append (ascii_moreEntries rest)))
termination_by structural entries
end

end RoundTrip

end Documents

end SecretWeb.Python.JsonText
