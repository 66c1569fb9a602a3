import SecretWeb.Shamir.Admission
import SecretWeb.Shamir.Reconstruction

/-! # Splits and the decoders that hold shares of them

A `Split` is what one run of the dealer fixes: a polynomial for every chunk and the
metadata put into every record.  `Holding` is the invariant of a decoder all of whose
accepted shares belong to one split; it is kept by every further share of that split, and
from the treshold on it determines what `decode` returns. -/

namespace SecretWeb.Shamir

open SecretWeb.Data SecretWeb.Python

/-- One chunk of a split secret: its value and the coefficients drawn above it. -/
structure Chunk where
  secret : Int
  higher : List Int

/-- A point lies in range and on the polynomial of the chunk. -/
def Chunk.Carries (chunk : Chunk) (point : Point) : Prop :=
  (0 < point.1 ∧ point.1 < PRIME) ∧
    residue point.2 = residue (polynom point.1 (chunk.higher ++ [chunk.secret]))

structure Split where
  chunks : List Chunk
  treshold : Int
  shares : Int
  creationDate : String
  owner : String
  name : String
  uuid : String
  secretHash : String
  nonempty : chunks ≠ []
  tresholdLower : 2 ≤ treshold
  tresholdUpper : treshold ≤ shares
  reduced : ∀ chunk ∈ chunks, 0 ≤ chunk.secret ∧ chunk.secret < PRIME
  degree : ∀ chunk ∈ chunks, (chunk.higher.length : Int) + 1 = treshold

namespace Split

/-- The record that hands these points to a participant. -/
def record (split : Split) (keys : List Point) : ParticipantData where
  keys := keys
  creationDate := .str split.creationDate
  owner := .str split.owner
  name := .str split.name
  uuid := .str split.uuid
  treshold := split.treshold
  shares := split.shares
  secretHash := .str split.secretHash

/-- A share of the split: one point on each of its polynomials. -/
def Carries (split : Split) (keys : List Point) : Prop :=
  List.Forall₂ Chunk.Carries split.chunks keys

/-- The points of all polynomials at one x-coordinate. -/
def shareAt (split : Split) (x : Int) : List Point :=
  split.chunks.map fun chunk => (x, polynom x (chunk.higher ++ [chunk.secret]))

theorem carries_shareAt (split : Split) {x : Int} (positive : 0 < x) (bounded : x < PRIME) :
    split.Carries (split.shareAt x) :=
  List.forall₂_map_right_iff.mpr (List.forall₂_same.mpr fun _ _ => ⟨⟨positive, bounded⟩, rfl⟩)

theorem Carries.length_eq {split : Split} {keys : List Point} (carried : split.Carries keys) :
    keys.length = split.chunks.length :=
  (List.Forall₂.length_eq carried).symm

theorem Carries.point {split : Split} {keys : List Point} (carried : split.Carries keys) {index : Nat}
    {chunk : Chunk} (found : split.chunks[index]? = some chunk) :
    ∃ point, keys[index]? = some point ∧ chunk.Carries point := by
  obtain ⟨inside, chunkEqual⟩ := List.getElem?_eq_some_iff.mp found
  have insideKeys : index < keys.length := by
    rw [carried.length_eq]
    exact inside
  refine ⟨keys[index], List.getElem?_eq_getElem insideKeys, ?_⟩
  rw [← chunkEqual]
  exact List.Forall₂.get carried inside insideKeys

end Split

/-- Two shares have one x-coordinate in one chunk. -/
def Collide (left right : List Point) : Prop :=
  ∃ (index : Nat) (leftPoint rightPoint : Point),
    left[index]? = some leftPoint ∧ right[index]? = some rightPoint ∧ leftPoint.1 = rightPoint.1

theorem Collide.symm {left right : List Point} (collide : Collide left right) : Collide right left := by
  obtain ⟨index, leftPoint, rightPoint, leftFound, rightFound, same⟩ := collide
  exact ⟨index, rightPoint, leftPoint, rightFound, leftFound, same.symm⟩

theorem not_collide_shareAt (split : Split) {left right : Int} (different : left ≠ right) :
    ¬Collide (split.shareAt left) (split.shareAt right) := by
  rintro ⟨index, leftPoint, rightPoint, leftFound, rightFound, same⟩
  simp only [Split.shareAt, List.getElem?_map, Option.map_eq_some_iff] at leftFound rightFound
  obtain ⟨_, _, rfl⟩ := leftFound
  obtain ⟨_, _, rfl⟩ := rightFound
  exact different same

/-! ## The invariant -/

/-- The expectation a decoder was constructed with: nothing, or the split's own text. -/
def Expects (field : Json) (text : String) : Prop :=
  field = .str text ∨ field.truthy = false

structure Holding (split : Split) (accepted : List (List Point)) (decoder : ShamirSecret) : Prop where
  keys : decoder.decodingParticipantsKeys = accepted
  carried : ∀ keys ∈ accepted, split.Carries keys
  apart : accepted.Pairwise fun left right => ¬Collide left right
  ready : decoder.readyToDecode = decide (split.treshold ≤ accepted.length)
  width : decoder.bytesPerInteger = 8
  expected : accepted = [] → Expects decoder.name split.name ∧ Expects decoder.owner split.owner
  adopted : accepted ≠ [] → ∀ keys, decoder.MatchesAdopted (split.record keys)
  hash : accepted ≠ [] → decoder.secretHash = .str split.secretHash

theorem holding_fresh (split : Split) {name owner : Json} (shares treshold : Int) (uuid4 : String)
    (expectsName : Expects name split.name) (expectsOwner : Expects owner split.owner) :
    Holding split [] (ShamirSecret.fresh name owner shares treshold uuid4) where
  keys := rfl
  carried := by simp
  apart := List.Pairwise.nil
  ready := by
    have lower := split.tresholdLower
    have short : ¬split.treshold ≤ 0 := by omega
    simp [ShamirSecret.fresh, short]
  width := rfl
  expected := fun _ => ⟨expectsName, expectsOwner⟩
  adopted := fun nonempty => absurd rfl nonempty
  hash := fun nonempty => absurd rfl nonempty

/-- A decoder with no share waits for some. -/
theorem Holding.waiting {split : Split} {decoder : ShamirSecret} (holding : Holding split [] decoder) :
    decoder.readyToDecode = false := by
  rw [holding.ready]
  refine decide_eq_false ?_
  have lower := split.tresholdLower
  simp only [List.length_nil, Nat.cast_zero]
  omega

theorem matchesExpected_of_expects {field : Json} {text : String} (expects : Expects field text)
    (truthy : field.truthy = true) : field.equals (.str text) = true := by
  rcases expects with rfl | falsy
  · simp
  · cases truthy.symm.trans falsy

/-- A share of the split that collides with nothing accepted is admitted. -/
theorem Holding.admits {split : Split} {accepted : List (List Point)} {decoder : ShamirSecret}
    (holding : Holding split accepted decoder) {keys : List Point} (carried : split.Carries keys)
    (apart : ∀ earlier ∈ accepted, ¬Collide earlier keys) : decoder.Admits (split.record keys) where
  tresholdLower := split.tresholdLower
  tresholdUpper := split.tresholdUpper
  nonempty := by
    intro empty
    have lengths := carried.length_eq
    have nonempty := List.length_pos_iff.mpr split.nonempty
    simp only [Split.record] at empty
    rw [empty] at lengths
    simp only [List.length_nil] at lengths
    omega
  sameLength := by
    intro first member
    rw [holding.keys] at member
    have firstCarried := holding.carried first (List.mem_of_mem_head? member)
    exact carried.length_eq.trans firstCarried.length_eq.symm
  points := by
    intro offset point found
    have inside : offset < split.chunks.length := by
      rw [← carried.length_eq]
      exact (List.getElem?_eq_some_iff.mp found).1
    obtain ⟨carriedPoint, pointFound, pointCarried⟩ :=
      carried.point (List.getElem?_eq_getElem inside)
    have same : carriedPoint = point := Option.some.inj (pointFound.symm.trans found)
    subst same
    refine ⟨pointCarried.1, ?_⟩
    rw [ShamirSecret.freshX, holding.keys, List.all_eq_true]
    intro earlier member
    rw [Nat.zero_add, bne_iff_ne]
    intro collision
    obtain ⟨earlierPoint, earlierFound, same⟩ := Option.map_eq_some_iff.mp collision
    exact apart earlier member ⟨offset, earlierPoint, carriedPoint, earlierFound, found, same⟩
  expected := by
    intro blank
    obtain ⟨expectsName, expectsOwner⟩ := holding.expected (holding.keys.symm.trans blank)
    exact ⟨matchesExpected_of_expects expectsName, matchesExpected_of_expects expectsOwner⟩
  adopted := by
    intro started
    exact holding.adopted (by rwa [holding.keys] at started) keys

theorem Holding.accepting {split : Split} {accepted : List (List Point)} {decoder : ShamirSecret}
    (holding : Holding split accepted decoder) {keys : List Point} (carried : split.Carries keys)
    (apart : ∀ earlier ∈ accepted, ¬Collide earlier keys) :
    Holding split (accepted ++ [keys]) (decoder.accepting (split.record keys)) where
  keys := by simp [holding.keys, Split.record]
  carried := by
    intro share member
    rcases List.mem_append.mp member with earlier | last
    · exact holding.carried share earlier
    · rw [List.mem_singleton.mp last]
      exact carried
  apart := by
    refine List.pairwise_append.mpr ⟨holding.apart, List.pairwise_singleton _ _, ?_⟩
    intro earlier member last lastMember
    rw [List.mem_singleton.mp lastMember]
    exact apart earlier member
  ready := by
    simp only [ShamirSecret.accepting_readyToDecode, holding.ready, holding.keys, Split.record,
      List.length_append, List.length_singleton, Nat.cast_add, Nat.cast_one]
    by_cases enough : split.treshold ≤ accepted.length
    · simp [enough, show split.treshold ≤ (accepted.length : Int) + 1 by omega]
    · simp [enough]
  width := holding.width
  expected := fun empty => absurd empty (by simp)
  adopted := fun _ _ => by
    simp [ShamirSecret.MatchesAdopted, ShamirSecret.accepting, Split.record]
  hash := fun _ => rfl

/-- One accepted call: what it returns and the invariant afterwards. -/
theorem Holding.populateDecoder {split : Split} {accepted : List (List Point)}
    {decoder : ShamirSecret} (holding : Holding split accepted decoder) {keys : List Point}
    (carried : split.Carries keys) (apart : ∀ earlier ∈ accepted, ¬Collide earlier keys)
    {document : Json} (reads : Reads document (split.record keys)) :
    ∃ after, decoder.populateDecoder document =
        (.ok ((accepted.length : Int) + 1 - split.treshold), after) ∧
      Holding split (accepted ++ [keys]) after := by
  refine ⟨_, ?_, holding.accepting carried apart⟩
  exact (decoder.populateDecoder_eq_ok document _ _).mpr
    ⟨_, reads, holding.admits carried apart, by rw [holding.keys]; rfl, rfl⟩

/-! ## Decoding -/

theorem encryptedInts_ok (accepted : List (List Point)) (index : Nat)
    (present : ∀ keys ∈ accepted, index < keys.length) :
    ShamirSecret.encryptedInts accepted index =
      .ok (accepted.map fun keys => (keys[index]?).getD (0, 0)) := by
  refine mapM_eq_ok accepted fun keys member => ?_
  rw [List.getElem?_eq_getElem (present keys member)]
  rfl

theorem Holding.decryptedInts {split : Split} {accepted : List (List Point)}
    {decoder : ShamirSecret} (holding : Holding split accepted decoder)
    (enough : split.treshold ≤ accepted.length) :
    ShamirSecret.decryptedInts accepted split.chunks.length = .ok (split.chunks.map (·.secret)) := by
  have chunkwise : ∀ index ∈ List.range split.chunks.length,
      (do
        let thisPartsEncryptedInts ← ShamirSecret.encryptedInts accepted index
        reconstructSecret thisPartsEncryptedInts) =
        .ok ((split.chunks[index]?.map (·.secret)).getD 0) := by
    intro index member
    have inside : index < split.chunks.length := List.mem_range.mp member
    have found : split.chunks[index]? = some split.chunks[index] := List.getElem?_eq_getElem inside
    have chunkMember : split.chunks[index] ∈ split.chunks := List.getElem_mem inside
    have pointOf : ∀ keys ∈ accepted, ∃ point, keys[index]? = some point ∧
        split.chunks[index].Carries point := fun keys keysMember =>
      (holding.carried keys keysMember).point found
    rw [encryptedInts_ok accepted index fun keys keysMember => by
      rw [(holding.carried keys keysMember).length_eq]; exact inside, ok_bind, found]
    refine reconstructSecret_of_graph _ split.chunks[index].higher _
      (split.reduced _ chunkMember).1 (split.reduced _ chunkMember).2 ?_ ?_ ?_ ?_
    · rw [List.map_map]
      refine List.pairwise_map.mpr (holding.apart.imp_of_mem ?_)
      intro left right leftMember rightMember apart same
      obtain ⟨leftPoint, leftFound, _⟩ := pointOf left leftMember
      obtain ⟨rightPoint, rightFound, _⟩ := pointOf right rightMember
      simp only [Function.comp_apply, leftFound, rightFound, Option.getD_some] at same
      exact apart ⟨index, leftPoint, rightPoint, leftFound, rightFound, same⟩
    · intro share shareMember
      obtain ⟨keys, keysMember, rfl⟩ := List.mem_map.mp shareMember
      obtain ⟨point, pointFound, carried⟩ := pointOf keys keysMember
      rw [pointFound]
      exact carried.1
    · intro share shareMember
      obtain ⟨keys, keysMember, rfl⟩ := List.mem_map.mp shareMember
      obtain ⟨point, pointFound, carried⟩ := pointOf keys keysMember
      rw [pointFound]
      exact carried.2
    · have degree := split.degree _ chunkMember
      rw [List.length_map]
      omega
  rw [ShamirSecret.decryptedInts, mapM_eq_ok _ chunkwise]
  congr 1
  apply List.ext_getElem
  · simp
  · intro index leftBound rightBound
    simp only [List.length_map, List.length_range] at leftBound
    simp [leftBound]

/-- From the treshold on, `decode` checks the integers that were split. -/
theorem Holding.decode {split : Split} {accepted : List (List Point)} {decoder : ShamirSecret}
    (holding : Holding split accepted decoder) (enough : split.treshold ≤ accepted.length)
    (sha256 : Bytes → String) :
    decoder.decode sha256 = decoder.checkedResult sha256 (split.chunks.map (·.secret)) := by
  have lower := split.tresholdLower
  cases acceptedShape : accepted with
  | nil =>
    rw [acceptedShape] at enough
    simp only [List.length_nil, Nat.cast_zero] at enough
    omega
  | cons first others =>
    have firstLength : first.length = split.chunks.length :=
      (holding.carried first (by simp [acceptedShape])).length_eq
    have ready : decoder.readyToDecode = true := holding.ready.trans (decide_eq_true enough)
    have decrypted := holding.decryptedInts enough
    rw [acceptedShape] at decrypted
    simp only [ShamirSecret.decode, ready, Bool.not_true, Bool.false_eq_true, ↓reduceIte,
      holding.keys, acceptedShape, firstLength, decrypted, ok_bind]

/-- A split of a secret, held from the treshold on, decodes to that secret. -/
theorem Holding.decode_secret {split : Split} {accepted : List (List Point)}
    {decoder : ShamirSecret} (holding : Holding split accepted decoder)
    (enough : split.treshold ≤ accepted.length) (sha256 : Bytes → String) (secret : String)
    (chunked : split.chunks.map (·.secret) = stringToIntegers secret 8)
    (hashed : split.secretHash = sha256 (encodeUtf8 secret)) :
    decoder.decode sha256 = .ok secret := by
  have started : accepted ≠ [] := by
    rintro rfl
    have lower := split.tresholdLower
    simp only [List.length_nil, Nat.cast_zero] at enough
    omega
  rw [holding.decode enough, chunked, ShamirSecret.checkedResult, holding.width,
    integerListToString_stringToIntegers secret 8 (by decide)]
  simp [holding.hash started, hashed]

end SecretWeb.Shamir
