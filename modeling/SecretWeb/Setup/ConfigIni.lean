import SecretWeb.Python.Dict
import Mathlib.Data.List.Basic

/-! # config.ini

The options of its one section, in the order in which they are written out.  Setup rewrites
the whole file in place: a write that is cut off leaves the file with the first options and
perhaps a part of the next one. -/

namespace SecretWeb.Setup

open SecretWeb.Python

abbrev Options := Dict String

/-- What `config.read` finds; it raises when a line is no option. -/
inductive ConfigFile where
  | absent
  | unreadable
  | options (entries : Options)
deriving DecidableEq

/-- `section.setdefault(name, value)`. -/
def setDefault (entries : Options) (default : String × String) : Options :=
  if (Dict.get entries default.1).isSome then entries else Dict.set entries default.1 default.2

def configDefaults : List (String × String) :=
  [("server-port", "59222"), ("bind-address", "0.0.0.0"), ("cert-file", "cert.pem"), ("key-file", "private.pem"),
    ("ca-file", "ca.crt")]

/-- `_load_or_default_config`; a file that is not there is read as an empty one. -/
def loadOrDefaultConfig : ConfigFile → Option Options
  | .absent => some (configDefaults.foldl setDefault [])
  | .unreadable => none
  | .options entries => some (configDefaults.foldl setDefault entries)

/-- `config.getboolean("secretweb", "initiated", fallback=False)`, where it does not raise. -/
def initiated (entries : Options) : Bool :=
  match Dict.get entries "initiated" with
  | none => false
  | some text => text.toLower ∈ ["1", "yes", "true", "on"]

/-- The uuid, the treshold and the shares that a boot collects KEY1 with. -/
def key1Metadata (entries : Options) : Option (String × String × String) := do
  let uuid ← Dict.get entries "key1-uuid"
  let treshold ← Dict.get entries "key1-treshold"
  let shares ← Dict.get entries "key1-shares"
  return (uuid, treshold, shares)

def setInitiated (entries : Options) : Options := Dict.set entries "initiated" "True"

def setKey1Metadata (entries : Options) (uuid : String) (treshold shares : Int) : Options :=
  let named := Dict.set entries "key1-name" "key1"
  let identified := Dict.set named "key1-uuid" uuid
  let bounded := Dict.set identified "key1-treshold" (toString treshold)
  Dict.set bounded "key1-shares" (toString shares)

/-! ## Writes that are cut off -/

/-- Where a write was cut off: after some options, within a value, or within a name. -/
inductive Tear where
  | between (count : Nat)
  | inValue (count : Nat) (text : String)
  | inName

def Tear.beginning (entries : Options) : Tear → ConfigFile
  | .between count => .options (entries.take count)
  | .inValue count text =>
    match entries[count]? with
    | some (name, _) => .options (entries.take count ++ [(name, text)])
    | none => .options entries
  | .inName => .unreadable

/-! ## Reading metadata back -/

section Metadata

variable {entries : Options}

theorem key1Metadata_eq_some {uuid treshold shares : String} :
    key1Metadata entries = some (uuid, treshold, shares) ↔
      Dict.get entries "key1-uuid" = some uuid ∧ Dict.get entries "key1-treshold" = some treshold ∧
        Dict.get entries "key1-shares" = some shares := by
  simp only [key1Metadata, Option.bind_eq_bind, Option.bind_eq_some_iff, Option.pure_def, Option.some.injEq,
    Prod.mk.injEq]
  constructor
  · rintro ⟨_, uuidFound, _, tresholdFound, _, sharesFound, rfl, rfl, rfl⟩
    exact ⟨uuidFound, tresholdFound, sharesFound⟩
  · rintro ⟨uuidFound, tresholdFound, sharesFound⟩
    exact ⟨_, uuidFound, _, tresholdFound, _, sharesFound, rfl, rfl, rfl⟩

theorem key1Metadata_congr {others : Options} (same : ∀ name ∈ ["key1-uuid", "key1-treshold", "key1-shares"],
    Dict.get others name = Dict.get entries name) : key1Metadata others = key1Metadata entries := by
  rw [key1Metadata, same _ (by simp), same _ (by simp), same _ (by simp), key1Metadata]

theorem key1Metadata_set {name : String} (value : String)
    (other : name ∉ ["key1-uuid", "key1-treshold", "key1-shares"]) :
    key1Metadata (Dict.set entries name value) = key1Metadata entries := by
  apply key1Metadata_congr
  intro field member
  refine Dict.get_set_ne _ _ ?_
  rintro rfl
  exact other member

theorem key1Metadata_setDefault (entries : Options) (default : String × String)
    (other : default.1 ∉ ["key1-uuid", "key1-treshold", "key1-shares"]) :
    key1Metadata (setDefault entries default) = key1Metadata entries := by
  rw [setDefault]
  split
  · rfl
  · exact key1Metadata_set _ other

theorem key1Metadata_defaults (entries : Options) :
    key1Metadata (configDefaults.foldl setDefault entries) = key1Metadata entries := by
  simp only [configDefaults, List.foldl_cons, List.foldl_nil]
  rw [key1Metadata_setDefault _ _ (by decide), key1Metadata_setDefault _ _ (by decide),
    key1Metadata_setDefault _ _ (by decide), key1Metadata_setDefault _ _ (by decide),
    key1Metadata_setDefault _ _ (by decide)]

theorem get_setKey1Metadata (entries : Options) (uuid : String) (treshold shares : Int) :
    Dict.get (setKey1Metadata entries uuid treshold shares) "key1-uuid" = some uuid := by
  rw [setKey1Metadata, Dict.get_set_ne _ _ (by decide), Dict.get_set_ne _ _ (by decide), Dict.get_set_self]

end Metadata

/-! ## The uuid comes first -/

/-- `key1-shares` does not stand before `key1-uuid`, nor without it. -/
def UuidFirst : Options → Prop
  | [] => True
  | (name, _) :: rest => name = "key1-uuid" ∨ (name ≠ "key1-shares" ∧ UuidFirst rest)

section Order

variable {entries : Options}

theorem uuidFirst_of_none (none : Dict.get entries "key1-shares" = none) : UuidFirst entries := by
  induction entries with
  | nil => trivial
  | cons entry rest inductionHypothesis =>
    obtain ⟨name, value⟩ := entry
    rw [Dict.get_cons] at none
    split at none
    · cases none
    · rename_i other
      exact .inr ⟨Ne.symm other, inductionHypothesis none⟩

theorem UuidFirst.get (ordered : UuidFirst entries) (shares : (Dict.get entries "key1-shares").isSome = true) :
    (Dict.get entries "key1-uuid").isSome = true := by
  induction entries with
  | nil => cases shares
  | cons entry rest inductionHypothesis =>
    obtain ⟨name, value⟩ := entry
    rw [Dict.get_cons] at shares ⊢
    cases ordered with
    | inl uuid =>
      subst uuid
      simp
    | inr later =>
      obtain ⟨other, restOrdered⟩ := later
      rw [if_neg (Ne.symm other)] at shares
      split
      · rfl
      · exact inductionHypothesis restOrdered shares

theorem UuidFirst.take (ordered : UuidFirst entries) (count : Nat) : UuidFirst (entries.take count) := by
  induction entries generalizing count with
  | nil => rw [List.take_nil]; trivial
  | cons entry rest inductionHypothesis =>
    cases count with
    | zero => trivial
    | succ count =>
      rw [List.take_succ_cons]
      cases ordered with
      | inl uuid => exact .inl uuid
      | inr later => exact .inr ⟨later.1, inductionHypothesis later.2 count⟩

theorem UuidFirst.set (ordered : UuidFirst entries) {name : String} (value : String)
    (allowed : name = "key1-shares" → (Dict.get entries "key1-uuid").isSome = true) :
    UuidFirst (Dict.set entries name value) := by
  induction entries with
  | nil =>
    refine .inr ⟨fun shares => ?_, trivial⟩
    have impossible := allowed shares
    cases impossible
  | cons entry rest inductionHypothesis =>
    obtain ⟨other, old⟩ := entry
    rw [Dict.set]
    by_cases same : other = name
    · rw [if_pos same]
      subst same
      cases ordered with
      | inl uuid => exact .inl uuid
      | inr later => exact .inr later
    · rw [if_neg same]
      cases ordered with
      | inl uuid => exact .inl uuid
      | inr later =>
        by_cases uuid : other = "key1-uuid"
        · exact .inl uuid
        · refine .inr ⟨later.1, inductionHypothesis later.2 fun shares => ?_⟩
          have found := allowed shares
          rwa [Dict.get_cons, if_neg (Ne.symm uuid)] at found

theorem UuidFirst.setDefault (ordered : UuidFirst entries) (default : String × String)
    (other : default.1 ≠ "key1-shares") : UuidFirst (setDefault entries default) := by
  rw [Setup.setDefault]
  split
  · exact ordered
  · exact ordered.set _ fun same => absurd same other

theorem UuidFirst.defaults (ordered : UuidFirst entries) : UuidFirst (configDefaults.foldl Setup.setDefault entries) :=
  ((((ordered.setDefault _ (by decide)).setDefault _ (by decide)).setDefault _ (by decide)).setDefault _
    (by decide)).setDefault _ (by decide)

theorem UuidFirst.setKey1Metadata (ordered : UuidFirst entries) (uuid : String) (treshold shares : Int) :
    UuidFirst (setKey1Metadata entries uuid treshold shares) := by
  have named : UuidFirst (Dict.set entries "key1-name" "key1") := ordered.set _ fun same => absurd same (by decide)
  have identified : UuidFirst (Dict.set (Dict.set entries "key1-name" "key1") "key1-uuid" uuid) :=
    named.set _ fun same => absurd same (by decide)
  have bounded : UuidFirst (Dict.set (Dict.set (Dict.set entries "key1-name" "key1") "key1-uuid" uuid) "key1-treshold"
      (toString treshold)) :=
    identified.set _ fun same => absurd same (by decide)
  refine bounded.set _ fun _ => ?_
  rw [Dict.get_set_ne _ _ (by decide), Dict.get_set_self]
  rfl

/-! ## What a beginning may say -/

theorem get_take {count : Nat} {name value : String} (found : Dict.get (entries.take count) name = some value) :
    Dict.get entries name = some value := by
  induction entries generalizing count with
  | nil => rwa [List.take_nil] at found
  | cons entry rest inductionHypothesis =>
    obtain ⟨other, old⟩ := entry
    cases count with
    | zero => cases found
    | succ count =>
      rw [List.take_succ_cons, Dict.get_cons] at found
      rw [Dict.get_cons]
      split
      · rename_i same
        rwa [if_pos same] at found
      · rename_i different
        rw [if_neg different] at found
        exact inductionHypothesis found

theorem get_append_singleton (entries : Options) (name text field : String) :
    Dict.get (entries ++ [(name, text)]) field =
      (Dict.get entries field).or (if field = name then some text else none) := by
  induction entries with
  | nil => rw [List.nil_append, Dict.get_cons, Dict.get_nil, Option.none_or]
  | cons entry rest inductionHypothesis =>
    obtain ⟨other, old⟩ := entry
    rw [List.cons_append, Dict.get_cons, Dict.get_cons, inductionHypothesis]
    split
    · rfl
    · rfl

theorem isSome_get_of_getElem? {count : Nat} {name value : String} (there : entries[count]? = some (name, value)) :
    (Dict.get entries name).isSome = true := by
  cases found : Dict.get entries name with
  | some value => rfl
  | none =>
    have absent := (Dict.get_eq_none_iff _ _).mp found
    exact absurd (List.mem_map.mpr ⟨_, List.mem_of_getElem? there, rfl⟩) absent

/-- What is begun are options of the file, the last one perhaps with less of its value. -/
theorem Tear.beginning_cases {tear : Tear} {begun : Options} (beginning : tear.beginning entries = .options begun) :
    (∃ count, begun = entries.take count) ∨
      ∃ count name value text, entries[count]? = some (name, value) ∧ begun = entries.take count ++ [(name, text)] := by
  cases tear with
  | between count =>
    cases beginning
    exact .inl ⟨count, rfl⟩
  | inValue count text =>
    rw [Tear.beginning] at beginning
    cases there : entries[count]? with
    | none =>
      rw [there] at beginning
      cases beginning
      exact .inl ⟨entries.length, List.take_length.symm⟩
    | some entry =>
      obtain ⟨name, value⟩ := entry
      rw [there] at beginning
      cases beginning
      exact .inr ⟨count, name, value, text, there, rfl⟩
  | inName => cases beginning

/-- A beginning has no option that the file does not have. -/
theorem isSome_get_beginning {tear : Tear} {begun : Options} (beginning : tear.beginning entries = .options begun)
    {field : String} (found : (Dict.get begun field).isSome = true) : (Dict.get entries field).isSome = true := by
  rcases Tear.beginning_cases beginning with ⟨count, rfl⟩ | ⟨count, name, value, text, there, rfl⟩
  · obtain ⟨value, found⟩ := Option.isSome_iff_exists.mp found
    rw [get_take found]
    rfl
  · rw [get_append_singleton] at found
    cases inside : Dict.get (entries.take count) field with
    | some value =>
      rw [get_take inside]
      rfl
    | none =>
      rw [inside, Option.none_or] at found
      split at found
      · rename_i same
        rw [same]
        exact isSome_get_of_getElem? there
      · cases found

/-- A beginning of a file without metadata is without metadata. -/
theorem key1Metadata_beginning {tear : Tear} {begun : Options} (beginning : tear.beginning entries = .options begun)
    (unpublished : key1Metadata entries = none) : key1Metadata begun = none := by
  cases metadata : key1Metadata begun with
  | none => rfl
  | some found =>
    obtain ⟨uuid, treshold, shares⟩ := found
    obtain ⟨uuidFound, tresholdFound, sharesFound⟩ := key1Metadata_eq_some.mp metadata
    obtain ⟨wholeUuid, uuidThere⟩ := Option.isSome_iff_exists.mp
      (isSome_get_beginning beginning (by rw [uuidFound]; rfl))
    obtain ⟨wholeTreshold, tresholdThere⟩ := Option.isSome_iff_exists.mp
      (isSome_get_beginning beginning (by rw [tresholdFound]; rfl))
    obtain ⟨wholeShares, sharesThere⟩ := Option.isSome_iff_exists.mp
      (isSome_get_beginning beginning (by rw [sharesFound]; rfl))
    rw [key1Metadata_eq_some.mpr ⟨uuidThere, tresholdThere, sharesThere⟩] at unpublished
    cases unpublished

/-- A beginning with metadata has the whole uuid: it is not the last option. -/
theorem uuid_beginning (ordered : UuidFirst entries) {tear : Tear} {begun : Options}
    (beginning : tear.beginning entries = .options begun) {uuid treshold shares : String}
    (metadata : key1Metadata begun = some (uuid, treshold, shares)) : Dict.get entries "key1-uuid" = some uuid := by
  obtain ⟨uuidFound, _, sharesFound⟩ := key1Metadata_eq_some.mp metadata
  rcases Tear.beginning_cases beginning with ⟨count, rfl⟩ | ⟨count, name, value, text, there, rfl⟩
  · exact get_take uuidFound
  · rw [get_append_singleton] at uuidFound sharesFound
    cases inside : Dict.get (entries.take count) "key1-uuid" with
    | some whole =>
      rw [inside] at uuidFound
      cases uuidFound
      exact get_take inside
    | none =>
      -- the shares would stand before the uuid
      rw [inside, Option.none_or] at uuidFound
      split at uuidFound
      · rename_i same
        subst same
        have before : (Dict.get (entries.take count) "key1-shares").isSome = true := by
          rw [if_neg (by decide), Option.or_none] at sharesFound
          rw [sharesFound]
          rfl
        have uuidBefore := (ordered.take count).get before
        rw [inside] at uuidBefore
        cases uuidBefore
      · cases uuidFound

/-- The value of the last option has no part in the order. -/
theorem UuidFirst.take_append (ordered : UuidFirst entries) {count : Nat} {name value text : String}
    (there : entries[count]? = some (name, value)) : UuidFirst (entries.take count ++ [(name, text)]) := by
  induction entries generalizing count with
  | nil => cases there
  | cons first rest inductionHypothesis =>
    obtain ⟨other, old⟩ := first
    cases count with
    | zero =>
      cases there
      cases ordered with
      | inl uuid => exact .inl uuid
      | inr later => exact .inr ⟨later.1, trivial⟩
    | succ count =>
      cases ordered with
      | inl uuid => exact .inl uuid
      | inr later => exact .inr ⟨later.1, inductionHypothesis later.2 there⟩

theorem UuidFirst.beginning (ordered : UuidFirst entries) {tear : Tear} {begun : Options}
    (beginning : tear.beginning entries = .options begun) : UuidFirst begun := by
  rcases Tear.beginning_cases beginning with ⟨count, rfl⟩ | ⟨count, name, value, text, there, rfl⟩
  · exact ordered.take count
  · exact ordered.take_append there

end Order

end SecretWeb.Setup
