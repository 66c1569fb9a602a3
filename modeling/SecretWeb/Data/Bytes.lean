import Mathlib.Algebra.Group.Nat.Defs
import Mathlib.Data.List.Induction
import Mathlib.Tactic.Common

/-! # Bytes, big-endian integers and UTF-8

Fixed-width big-endian conversion both ways, UTF-8 through Lean's own strings, and the
splitting of a byte sequence into zero-padded blocks together with its inverse. -/

namespace SecretWeb.Data

abbrev Bytes := List UInt8

/-! ## Big-endian integers -/

def ofBigEndian (bytes : Bytes) : Nat :=
  bytes.foldl (fun value byte => value * 256 + byte.toNat) 0

def toBigEndian : (width : Nat) → Nat → Bytes
  | 0, _ => []
  | width + 1, value => toBigEndian width (value / 256) ++ [UInt8.ofNat (value % 256)]

@[simp] theorem length_toBigEndian (width value : Nat) : (toBigEndian width value).length = width := by
  induction width generalizing value with
  | zero => rfl
  | succ width inductionHypothesis => simp [toBigEndian, inductionHypothesis]

theorem ofBigEndian_append_singleton (bytes : Bytes) (byte : UInt8) :
    ofBigEndian (bytes ++ [byte]) = ofBigEndian bytes * 256 + byte.toNat := by
  simp [ofBigEndian, List.foldl_append]

theorem ofBigEndian_lt (bytes : Bytes) : ofBigEndian bytes < 256 ^ bytes.length := by
  induction bytes using List.reverseRecOn with
  | nil => simp [ofBigEndian]
  | append_singleton bytes byte inductionHypothesis =>
    rw [ofBigEndian_append_singleton, List.length_append, List.length_singleton, Nat.pow_succ]
    have byteBound := byte.toNat_lt
    omega

theorem toBigEndian_ofBigEndian (bytes : Bytes) :
    toBigEndian bytes.length (ofBigEndian bytes) = bytes := by
  induction bytes using List.reverseRecOn with
  | nil => rfl
  | append_singleton bytes byte inductionHypothesis =>
    have byteBound := byte.toNat_lt
    have quotient : (ofBigEndian bytes * 256 + byte.toNat) / 256 = ofBigEndian bytes := by omega
    have remainder : (ofBigEndian bytes * 256 + byte.toNat) % 256 = byte.toNat := by omega
    rw [ofBigEndian_append_singleton, List.length_append, List.length_singleton, toBigEndian,
      quotient, remainder, inductionHypothesis, UInt8.ofNat_toNat]

theorem ofBigEndian_toBigEndian (width value : Nat) (fits : value < 256 ^ width) :
    ofBigEndian (toBigEndian width value) = value := by
  induction width generalizing value with
  | zero =>
    rw [Nat.pow_zero] at fits
    obtain rfl : value = 0 := by omega
    rfl
  | succ width inductionHypothesis =>
    have quotient : value / 256 < 256 ^ width := by
      rw [Nat.pow_succ] at fits
      omega
    have digit : (UInt8.ofNat (value % 256)).toNat = value % 256 := by simp
    rw [toBigEndian, ofBigEndian_append_singleton, inductionHypothesis _ quotient, digit]
    omega

/-! ## UTF-8 -/

def encodeUtf8 (text : String) : Bytes := text.toUTF8.data.toList

def decodeUtf8 (bytes : Bytes) : Option String := String.fromUTF8? ⟨bytes.toArray⟩

@[simp] theorem decodeUtf8_encodeUtf8 (text : String) : decodeUtf8 (encodeUtf8 text) = some text := by
  have whole : (⟨(encodeUtf8 text).toArray⟩ : ByteArray) = text.toByteArray := by
    simp [encodeUtf8]
  have valid : (⟨(encodeUtf8 text).toArray⟩ : ByteArray).IsValidUTF8 := whole ▸ text.isValidUTF8
  rw [decodeUtf8, String.fromUTF8?, dif_pos valid]
  congr 1

/-- ASCII text is encoded one byte a character. -/
theorem encodeUtf8_of_ascii {text : String} (ascii : ∀ char ∈ text.toList, char.val ≤ 127) :
    encodeUtf8 text = text.toList.map fun char => char.val.toUInt8 := by
  have characters : ∀ chars : List Char, (∀ char ∈ chars, char.val ≤ 127) →
      chars.flatMap String.utf8EncodeChar = chars.map fun char => char.val.toUInt8 := by
    intro chars allAscii
    induction chars with
    | nil => rfl
    | cons char rest inductionHypothesis =>
      have single : char.utf8Size = 1 := Char.utf8Size_eq_one_iff.mpr (allAscii char List.mem_cons_self)
      rw [List.flatMap_cons, String.utf8EncodeChar_eq_singleton single,
        inductionHypothesis fun other member => allAscii other (List.mem_cons_of_mem _ member)]
      rfl
  rw [← characters text.toList ascii, encodeUtf8, String.toUTF8, ← String.utf8Encode_toList, List.utf8Encode]
  simp

/-! ## Blocks -/

/-- `bytes.ljust(width, b'\x00')`. -/
def padRight (width : Nat) (bytes : Bytes) : Bytes :=
  bytes ++ List.replicate (width - bytes.length) 0

/-- The starting offsets of `range(0, length, step)`. -/
def offsets (length step : Nat) : List Nat :=
  (List.range ((length + step - 1) / step)).map (· * step)

/-- The blocks of `bytes` of the given width, the last one padded with zeros. -/
def blocks (width : Nat) (bytes : Bytes) : List Bytes :=
  (offsets bytes.length width).map fun start => padRight width ((bytes.drop start).take width)

@[simp] theorem length_padRight (width : Nat) (bytes : Bytes) (fits : bytes.length ≤ width) :
    (padRight width bytes).length = width := by
  simp only [padRight, List.length_append, List.length_replicate]
  omega

theorem length_of_mem_blocks {width : Nat} {bytes block : Bytes} (member : block ∈ blocks width bytes) :
    block.length = width := by
  simp only [blocks, List.mem_map] at member
  obtain ⟨start, _, rfl⟩ := member
  exact length_padRight width _ (by simpa only [List.length_take] using Nat.min_le_left _ _)

theorem length_blocks (width : Nat) (bytes : Bytes) :
    (blocks width bytes).length = (bytes.length + width - 1) / width := by
  simp [blocks, offsets]

/-- The first `count` blocks hold the first `count * width` bytes, padded when the last of
them is the one that runs over the end. -/
theorem flatten_take_blocks (width : Nat) (bytes : Bytes) (count : Nat)
    (started : ∀ before, before + 1 = count → before * width < bytes.length) :
    ((List.range count).map fun index =>
        padRight width ((bytes.drop (index * width)).take width)).flatten =
      padRight (count * width) (bytes.take (count * width)) := by
  induction count with
  | zero => simp [padRight]
  | succ count inductionHypothesis =>
    have inside : count * width < bytes.length := started count rfl
    have earlier := inductionHypothesis fun before next => by
      have monotone : before * width ≤ count * width := Nat.mul_le_mul_right width (by omega)
      omega
    have full : padRight (count * width) (bytes.take (count * width)) = bytes.take (count * width) := by
      simp only [padRight, List.length_take]
      rw [Nat.min_eq_left (by omega), Nat.sub_self, List.replicate_zero, List.append_nil]
    have padding : width - min width (bytes.length - count * width) =
        (count + 1) * width - min ((count + 1) * width) bytes.length := by
      rw [Nat.succ_mul]
      omega
    rw [List.range_succ, List.map_append, List.flatten_append, earlier, full]
    simp only [List.map_cons, List.map_nil, List.flatten_cons, List.flatten_nil, List.append_nil,
      padRight, List.length_take, List.length_drop, padding]
    rw [← List.append_assoc, Nat.succ_mul, List.take_add]

/-- Cutting the joined blocks back to the original length removes exactly the padding. -/
theorem take_flatten_blocks (width : Nat) (positive : 0 < width) (bytes : Bytes) :
    (blocks width bytes).flatten.take bytes.length = bytes := by
  have covers : bytes.length ≤ (bytes.length + width - 1) / width * width := by
    have division := Nat.div_add_mod (bytes.length + width - 1) width
    have remainder := Nat.mod_lt (bytes.length + width - 1) positive
    rw [Nat.mul_comm] at division
    omega
  have joined := flatten_take_blocks width bytes ((bytes.length + width - 1) / width)
    fun before next => by
      have division := Nat.div_mul_le_self (bytes.length + width - 1) width
      rw [← next, Nat.succ_mul] at division
      omega
  simp only [blocks, offsets, List.map_map, Function.comp_def]
  rw [joined, List.take_of_length_le covers, padRight, List.take_left]

end SecretWeb.Data
