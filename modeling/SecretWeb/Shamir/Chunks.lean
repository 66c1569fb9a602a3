import SecretWeb.Data.Bytes
import SecretWeb.Python.Exceptions
import Mathlib.Algebra.Order.Ring.Int

/-! # Secrets as lists of integers

`string_to_integers` puts the byte length in front of the big-endian values of the
zero-padded blocks; `integer_list_to_string` converts back and cuts at that length. -/

namespace SecretWeb.Shamir

open SecretWeb.Data SecretWeb.Python

def stringToIntegers (inputRaw : String) (bytesPerInteger : Nat) : List Int :=
  let rawBytes := encodeUtf8 inputRaw
  (rawBytes.length : Int) ::
    (blocks bytesPerInteger rawBytes).map fun chunk => (ofBigEndian chunk : Int)

/-- `integer.to_bytes(width, byteorder='big')`. -/
def intToBytes (value : Int) (width : Nat) : Except PyException Bytes :=
  if value < 0 ∨ (256 : Int) ^ width ≤ value then .error .overflowError
  else .ok (toBigEndian width value.toNat)

/-- `bytes[:stop]`, where a negative stop counts from the end. -/
def sliceTo (bytes : Bytes) (stop : Int) : Bytes :=
  if 0 ≤ stop then bytes.take stop.toNat else bytes.take (bytes.length - stop.natAbs)

def joinBytes (bytesPerInteger : Nat) : List Int → Except PyException Bytes
  | [] => .ok []
  | integer :: rest => do
    let chunk ← intToBytes integer bytesPerInteger
    let following ← joinBytes bytesPerInteger rest
    return chunk ++ following

def integerListToString (inputList : List Int) (bytesPerInteger : Nat) : Except PyException String :=
  match inputList with
  | [] => .error .indexError
  | byteLength :: integers => do
    let allBytes ← joinBytes bytesPerInteger integers
    match decodeUtf8 (sliceTo allBytes byteLength) with
    | some text => .ok text
    | none => .error .unicodeDecodeError

theorem intToBytes_ofBigEndian (chunk : Bytes) :
    intToBytes (ofBigEndian chunk) chunk.length = .ok chunk := by
  have bounded : ((ofBigEndian chunk : Nat) : Int) < (256 : Int) ^ chunk.length := by
    exact_mod_cast ofBigEndian_lt chunk
  have inRange : ¬((ofBigEndian chunk : Int) < 0 ∨ (256 : Int) ^ chunk.length ≤ ofBigEndian chunk) := by
    omega
  rw [intToBytes, if_neg inRange, Int.toNat_natCast, toBigEndian_ofBigEndian]

theorem joinBytes_chunks (bytesPerInteger : Nat) (chunks : List Bytes)
    (sized : ∀ chunk ∈ chunks, chunk.length = bytesPerInteger) :
    joinBytes bytesPerInteger (chunks.map fun chunk => (ofBigEndian chunk : Int)) =
      .ok chunks.flatten := by
  induction chunks with
  | nil => rfl
  | cons chunk rest inductionHypothesis =>
    have converted : intToBytes (ofBigEndian chunk) bytesPerInteger = .ok chunk := by
      rw [← sized chunk List.mem_cons_self]
      exact intToBytes_ofBigEndian chunk
    have following := inductionHypothesis fun other member => sized other (List.mem_cons_of_mem _ member)
    simp [joinBytes, converted, following, pure, Except.pure]

/-- Chunking loses nothing, whatever the text and the chunk width. -/
theorem integerListToString_stringToIntegers (text : String) (bytesPerInteger : Nat)
    (positive : 0 < bytesPerInteger) :
    integerListToString (stringToIntegers text bytesPerInteger) bytesPerInteger = .ok text := by
  have joined := joinBytes_chunks bytesPerInteger (blocks bytesPerInteger (encodeUtf8 text))
    fun chunk member => length_of_mem_blocks member
  have cut : sliceTo (blocks bytesPerInteger (encodeUtf8 text)).flatten (encodeUtf8 text).length =
      encodeUtf8 text := by
    simp [sliceTo, take_flatten_blocks bytesPerInteger positive]
  simp only [stringToIntegers, integerListToString, joined, ok_bind, cut, decodeUtf8_encodeUtf8]

theorem length_stringToIntegers (text : String) (bytesPerInteger : Nat) :
    (stringToIntegers text bytesPerInteger).length =
      1 + ((encodeUtf8 text).length + bytesPerInteger - 1) / bytesPerInteger := by
  simp [stringToIntegers, length_blocks, Nat.add_comm]

/-- Every integer of a chunked text is a length or fits the chunk width. -/
theorem mem_stringToIntegers {text : String} {bytesPerInteger : Nat} {integer : Int}
    (member : integer ∈ stringToIntegers text bytesPerInteger) :
    0 ≤ integer ∧
      (integer = (encodeUtf8 text).length ∨ integer < (256 : Int) ^ bytesPerInteger) := by
  simp only [stringToIntegers, List.mem_cons, List.mem_map] at member
  rcases member with rfl | ⟨chunk, chunkMember, rfl⟩
  · exact ⟨Int.natCast_nonneg _, .inl rfl⟩
  · refine ⟨Int.natCast_nonneg _, .inr ?_⟩
    have bounded := ofBigEndian_lt chunk
    rw [length_of_mem_blocks chunkMember] at bounded
    exact_mod_cast bounded

theorem joinBytes_error {bytesPerInteger : Nat} {integers : List Int} {exception : PyException}
    (raised : joinBytes bytesPerInteger integers = .error exception) : exception = .overflowError := by
  induction integers with
  | nil => cases raised
  | cons integer rest inductionHypothesis =>
    rw [joinBytes] at raised
    cases converted : intToBytes integer bytesPerInteger with
    | error refusal =>
      rw [converted] at raised
      cases raised
      unfold intToBytes at converted
      split at converted
      · cases converted
        rfl
      · cases converted
    | ok chunk =>
      rw [converted, ok_bind] at raised
      cases following : joinBytes bytesPerInteger rest with
      | error refusal =>
        rw [following] at raised
        cases raised
        exact inductionHypothesis following
      | ok bytes =>
        rw [following] at raised
        cases raised

theorem integerListToString_error {byteLength : Int} {integers : List Int} {bytesPerInteger : Nat}
    {exception : PyException} (raised : integerListToString (byteLength :: integers) bytesPerInteger = .error exception) :
    exception = .overflowError ∨ exception = .unicodeDecodeError := by
  rw [integerListToString] at raised
  cases joined : joinBytes bytesPerInteger integers with
  | error refusal =>
    rw [joined] at raised
    cases raised
    exact .inl (joinBytes_error joined)
  | ok allBytes =>
    rw [joined, ok_bind] at raised
    cases text : decodeUtf8 (sliceTo allBytes byteLength) with
    | none =>
      rw [text] at raised
      cases raised
      exact .inr rfl
    | some decoded =>
      rw [text] at raised
      cases raised

end SecretWeb.Shamir
