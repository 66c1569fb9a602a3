import SecretWeb.Mesh.Safety
import SecretWeb.Setup.Masking

/-! # What a minority learns

Fewer servers than the treshold never hold anything of a KEY1 that they could not hold as well
of another one. -/

namespace SecretWeb.Mesh

open SecretWeb.Data SecretWeb.Python SecretWeb.Python.JsonText SecretWeb.Shamir SecretWeb.Client SecretWeb.Network
  SecretWeb.Setup SecretWeb.Server SecretWeb.Server.Recovery

open SecretWeb.Machine (run)

section Secrecy

variable {Place : Type}

/-- What is stored at the place in the name of the host is what has been dealt there, but for
the checksum. -/
def Web.AsDealt (web : Web Place) (owner place : Place) (publication : Key1Publication) (store : Store) : Prop :=
  ∀ share text, Dict.get store.shares (web.member owner).uuid4 = some share → share.getItem "owner" = .ok (.str text) →
    web.platform.lower text = web.platform.lower (web.member owner).ownName →
    ∃ host record, (host, record) ∈ publication.deliveries ∧ web.platform.place host = place ∧
      share = { record with secretHash := .str (web.platform.sha256 (encodeUtf8 (web.member owner).key1)) }.toJson

theorem Guards.mono {web : Web Place} {state : State web} {place : Place} {property weaker : Store → Prop}
    (guards : Guards state place property) (implies : ∀ store, property store → weaker store) :
    Guards state place weaker := by
  obtain ⟨store, flight, tracks, holds⟩ := guards
  exact ⟨store, flight, tracks, fun candidate possible => implies candidate (holds candidate possible)⟩

variable [DecidableEq Place]

/-- The indices of the other hosts at these places. -/
def Member.indices {platform : Platform Place} (member : Member platform) (places : Finset Place) : Finset Nat :=
  places.image (member.others.map platform.place).idxOf

theorem Member.mem_indices {platform : Platform Place} (member : Member platform) {places : Finset Place} {index : Nat}
    {host : Host} (found : member.others[index]? = some host) (inside : platform.place host ∈ places) :
    index ∈ member.indices places := by
  have placesApart : (member.others.map platform.place).Nodup :=
    (List.Nodup.of_map _ member.othersApart).map_on fun first firstOther second secondOther same =>
      member.placedApart first (member.typed_of_other firstOther) second (member.typed_of_other secondOther) same
  obtain ⟨bound, rfl⟩ := List.getElem?_eq_some_iff.mp found
  refine Finset.mem_image.mpr ⟨_, inside, ?_⟩
  have there := placesApart.idxOf_getElem index (by simpa using bound)
  rwa [List.getElem_map] at there

/-- Whatever the hosts of a minority are dealt of a KEY1, any other KEY1 with as many chunks can
be dealt so that in every run, at any time, all that their servers hold in the name of the host,
on disk, in memory and on the way, is what that dealing gives them, but for the checksum. -/
theorem minority_learns_nothing (web : Web Place) (owner : Place) (minority : Finset Place)
    (few : (minority.card : Int) < (web.member owner).publication.treshold) (other : String)
    (bounded : (encodeUtf8 other).length ≤ MAX_SECRET_BYTES)
    (sameChunks : (stringToIntegers other 8).length = (stringToIntegers (web.member owner).key1 8).length) :
    ∃ draws publication,
      dealKey1 web.platform.sha256 other (web.member owner).typed (web.member owner).ownName (web.member owner).uuid4
        (web.member owner).dealtAt draws = .ok (some publication) ∧
      ∀ events : List (Event Place web.platform.floats), (∀ event ∈ events, web.Fair event) → ∀ place ∈ minority,
        Guards (run web.step web.initial events) place (web.AsDealt owner place publication) := by
  have fewIndices : (((web.member owner).indices minority).card : Int) < (web.member owner).publication.treshold := by
    have fewer : ((web.member owner).indices minority).card ≤ minority.card := Finset.card_image_le
    omega
  obtain ⟨draws, publication, dealt, disguised⟩ :=
    dealKey1_masked (web.member owner).dealt bounded sameChunks fewIndices
  refine ⟨draws, publication, dealt, fun events fair place inside => ?_⟩
  have invariant : Invariant (run web.step web.initial events) := invariant_initial.run fair
  refine (invariant.owned place).mono fun store owned share text found ownerRead own => ?_
  obtain ⟨_, sameOwner, isParcel⟩ := owned owner share found
  obtain rfl := Json.str.inj (Except.ok.inj (sameOwner.symm.trans ownerRead))
  obtain ⟨parcel, sent, there, rfl⟩ := isParcel own
  obtain ⟨record, delivered, value⟩ := (web.member owner).mem_parcels sent
  obtain ⟨index, deliveryFound⟩ := List.mem_iff_getElem?.mp delivered
  have hostFound : (web.member owner).others[index]? = some parcel.host := by
    rw [← (web.member owner).deliveries_hosts, List.getElem?_map, deliveryFound]
    rfl
  obtain ⟨disguise, disguiseFound, rfl⟩ := disguised index
    ((web.member owner).mem_indices hostFound (there ▸ inside)) parcel.host record deliveryFound
  exact ⟨parcel.host, disguise, List.mem_of_getElem? disguiseFound, there, value⟩

end Secrecy

/-- The second host cannot tell the KEY1 of the first one from another word of two letters. -/
theorem minority_learns_nothing_trio : ∃ draws publication,
    dealKey1 sampleSha256 "no" trioHosts "host1" "u1" "now" draws = .ok (some publication) ∧
    ∀ events : List (Event (Fin 3) trioWeb.platform.floats), (∀ event ∈ events, trioWeb.Fair event) →
      ∀ place ∈ ({1} : Finset (Fin 3)),
        Guards (run trioWeb.step trioWeb.initial events) place (trioWeb.AsDealt 0 place publication) :=
  minority_learns_nothing trioWeb 0 {1} (by decide) "no" (by decide) (by decide)

end SecretWeb.Mesh
