import Mathlib.Algebra.Order.Floor.Div
import SecretWeb.Shamir.Quorum

/-! # Chunks as residues

What `_generate_shares` splits comes back modulo `PRIME`, so an integer survives exactly when
it is a reduced residue.  The entries of a chunked text are, as long as a whole chunk and the
length of the text stay below the prime. -/

namespace SecretWeb.Shamir

open SecretWeb.Data SecretWeb.Python

/-! ## One entry -/

section Entry

variable {nShares m entry : Int} {draws : ChunkDraws} {row points : List Point}

/-- Enough points of a row, in any order, combine into the residue of what was split. -/
theorem reconstructSecret_of_row (generated : generateShares nShares m entry draws = some row) (positive : 1 ≤ m)
    (selected : points.Subperm row) (enough : m ≤ points.length) :
    reconstructSecret points = .ok (entry % PRIME) := by
  obtain ⟨count, _, dealt⟩ := generateShares_spec generated
  have distinct : (points.map Prod.fst).Nodup := by
    obtain ⟨arranged, permutation, sublist⟩ := selected
    exact ((permutation.map Prod.fst).nodup_iff).mp (dealt.distinct.sublist (sublist.map Prod.fst))
  refine reconstructSecret_emod points draws.higher entry distinct ?_ ?_ ?_
  · exact fun point member => dealt.inRange point (selected.subset member)
  · exact fun point member => congrArg residue (dealt.onGraph point (selected.subset member))
  · omega

/-- Splitting and interpolating loses nothing exactly for a reduced residue. -/
theorem reconstructSecret_row_iff (generated : generateShares nShares m entry draws = some row) (positive : 1 ≤ m)
    (selected : points.Subperm row) (enough : m ≤ points.length) :
    reconstructSecret points = .ok entry ↔ 0 ≤ entry ∧ entry < PRIME := by
  rw [reconstructSecret_of_row generated positive selected enough]
  constructor
  · intro same
    rw [← Except.ok.inj same]
    exact ⟨Int.emod_nonneg _ PRIME_pos.ne', Int.emod_lt_of_pos _ PRIME_pos⟩
  · intro reduced
    rw [Int.emod_eq_of_lt reduced.1 reduced.2]

end Entry

/-! ## All entries -/

/-- From every row enough points, in any order. -/
def Selected (m : Int) (rows selected : List (List Point)) : Prop :=
  List.Forall₂ (fun points row => points.Subperm row ∧ m ≤ points.length) selected rows

theorem mapM_reconstructSecret {nShares m : Int} {integers : List Int} {draws : List ChunkDraws}
    {rows selected : List (List Point)} (generated : generateRows nShares m integers draws = some rows)
    (positive : 1 ≤ m) (reduced : ∀ entry ∈ integers, 0 ≤ entry ∧ entry < PRIME)
    (chosen : Selected m rows selected) : selected.mapM reconstructSecret = .ok integers := by
  induction integers generalizing draws rows selected with
  | nil =>
    cases generated
    cases chosen
    rfl
  | cons entry rest inductionHypothesis =>
    obtain ⟨first, others, row, tail, rfl, rowGenerated, tailGenerated, rfl⟩ := generateRows_cons generated
    cases chosen with
    | cons here later =>
      have combined := (reconstructSecret_row_iff rowGenerated positive here.1 here.2).mpr
        (reduced entry List.mem_cons_self)
      have following := inductionHypothesis tailGenerated
        (fun other member => reduced other (List.mem_cons_of_mem _ member)) later
      rw [List.mapM_cons, combined, ok_bind, following, ok_bind]
      rfl

/-- A chunk and the length both have to stay below the prime. -/
theorem stringToIntegers_residues {text : String} {bytesPerInteger : Nat} (fits : 256 ^ bytesPerInteger ≤ PRIME)
    (short : (encodeUtf8 text).length < PRIME) :
    ∀ entry ∈ stringToIntegers text bytesPerInteger, 0 ≤ entry ∧ entry < PRIME := by
  intro entry member
  obtain ⟨nonneg, rfl | bounded⟩ := mem_stringToIntegers member
  · exact ⟨nonneg, by exact_mod_cast short⟩
  · exact ⟨nonneg, bounded.trans_le (by exact_mod_cast fits)⟩

/-- Chunks of up to fifteen bytes do, longer ones do not. -/
theorem fits_iff (bytesPerInteger : Nat) : 256 ^ bytesPerInteger ≤ PRIME ↔ bytesPerInteger ≤ 15 := by
  constructor
  · intro fits
    by_contra wide
    have larger : 256 ^ 16 ≤ 256 ^ bytesPerInteger := Nat.pow_le_pow_right (by decide) (by omega)
    have exceeds : PRIME < 256 ^ 16 := by norm_num [PRIME]
    omega
  · intro narrow
    calc 256 ^ bytesPerInteger ≤ 256 ^ 15 := Nat.pow_le_pow_right (by decide) narrow
      _ ≤ PRIME := by norm_num [PRIME]

/-- Chunking is undone by joining, its entries are a length and integers of the chunk width,
and below the prime they come back from their shares. -/
theorem chunking_invertible (text : String) (bytesPerInteger : Nat) (positive : 0 < bytesPerInteger) :
    integerListToString (stringToIntegers text bytesPerInteger) bytesPerInteger = .ok text ∧
    (stringToIntegers text bytesPerInteger).length = 1 + (encodeUtf8 text).length ⌈/⌉ bytesPerInteger ∧
    (∃ entries : List Int, stringToIntegers text bytesPerInteger = ((encodeUtf8 text).length : Int) :: entries ∧
      ∀ entry ∈ entries, 0 ≤ entry ∧ entry < 256 ^ bytesPerInteger) ∧
    (256 ^ bytesPerInteger ≤ PRIME → (encodeUtf8 text).length < PRIME →
      (∀ entry ∈ stringToIntegers text bytesPerInteger, 0 ≤ entry ∧ entry < PRIME) ∧
      ∀ (nShares m : Int) (draws : List ChunkDraws) (rows selected : List (List Point)), 1 ≤ m →
        generateRows nShares m (stringToIntegers text bytesPerInteger) draws = some rows →
        Selected m rows selected →
        selected.mapM reconstructSecret = .ok (stringToIntegers text bytesPerInteger)) := by
  refine ⟨integerListToString_stringToIntegers text bytesPerInteger positive, ?_, ?_, ?_⟩
  · rw [length_stringToIntegers, Nat.ceilDiv_eq_add_pred_div]
  · refine ⟨_, rfl, fun entry member => ?_⟩
    obtain ⟨chunk, chunkMember, rfl⟩ := List.mem_map.mp member
    have bounded := ofBigEndian_lt chunk
    rw [length_of_mem_blocks chunkMember] at bounded
    exact ⟨Int.natCast_nonneg _, by exact_mod_cast bounded⟩
  · intro fits short
    have reduced := stringToIntegers_residues fits short
    exact ⟨reduced, fun _ _ _ _ _ atLeastOne generated chosen =>
      mapM_reconstructSecret generated atLeastOne reduced chosen⟩

/-- Three bytes, the last of them zero, in chunks of two: the shares of two participants, the
later one first. -/
theorem chunking_invertible_zero :
    stringToIntegers "hi\x00" 2 = [3, 26729, 0] ∧
      integerListToString [3, 26729, 0] 2 = .ok "hi\x00" ∧
      ∃ rows, generateRows 2 2 [3, 26729, 0] [⟨[5], [0, 1]⟩, ⟨[7], [2, 2, 3]⟩, ⟨[0], [4, 5]⟩] = some rows ∧
        (rows.map List.reverse).mapM reconstructSecret = .ok [3, 26729, 0] := by
  have chunked : stringToIntegers "hi\x00" 2 = [3, 26729, 0] := by decide +kernel
  obtain ⟨joined, _, _, splits⟩ := chunking_invertible "hi\x00" 2 (by decide)
  rw [chunked] at joined splits
  refine ⟨chunked, joined, _, rfl, ?_⟩
  refine (splits ((fits_iff 2).mpr (by decide)) (by decide +kernel)).2 2 2
    [⟨[5], [0, 1]⟩, ⟨[7], [2, 2, 3]⟩, ⟨[0], [4, 5]⟩] _ _ (by decide) rfl ?_
  exact .cons ⟨(List.reverse_perm _).subperm, by decide⟩ (.cons ⟨(List.reverse_perm _).subperm, by decide⟩
    (.cons ⟨(List.reverse_perm _).subperm, by decide⟩ .nil))

end SecretWeb.Shamir
