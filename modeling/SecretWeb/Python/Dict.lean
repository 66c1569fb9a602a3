import Mathlib.Data.List.Nodup
import Mathlib.Data.List.Perm.Subperm
import Mathlib.Data.Nat.Find
import Mathlib.Tactic.Common

/-! # Insertion-ordered dictionaries keyed by strings

`set` overwrites in place or appends, as `mapping[key] = value` does; `get` is
`mapping.get(key)`. -/

namespace SecretWeb.Python

abbrev Dict (α : Type _) := List (String × α)

namespace Dict

variable {α : Type _}

def get (entries : Dict α) (key : String) : Option α := entries.lookup key

def set : Dict α → String → α → Dict α
  | [], key, value => [(key, value)]
  | (other, old) :: rest, key, value =>
      if other = key then (key, value) :: rest else (other, old) :: set rest key value

/-- `del mapping[key]`, or nothing if the key is not there. -/
def erase (entries : Dict α) (key : String) : Dict α := entries.filter fun entry => entry.1 ≠ key

@[simp] theorem get_nil (key : String) : get ([] : Dict α) key = none := rfl

theorem get_cons (other key : String) (value : α) (rest : Dict α) :
    get ((other, value) :: rest) key = if key = other then some value else get rest key := by
  by_cases same : key = other
  · simp [get, same]
  · simp [get, List.lookup_cons, same, beq_false_of_ne same]

@[simp] theorem get_set_self (entries : Dict α) (key : String) (value : α) :
    get (set entries key value) key = some value := by
  induction entries with
  | nil => simp [set, get_cons]
  | cons entry rest inductionHypothesis =>
    obtain ⟨other, old⟩ := entry
    by_cases same : other = key
    · simp [set, get_cons, same]
    · simp [set, get_cons, same, Ne.symm same, inductionHypothesis]

theorem get_set_ne (entries : Dict α) {key other : String} (value : α) (different : other ≠ key) :
    get (set entries key value) other = get entries other := by
  induction entries with
  | nil => simp [set, get_cons, different]
  | cons entry rest inductionHypothesis =>
    obtain ⟨head, old⟩ := entry
    by_cases same : head = key
    · subst same
      simp [set, get_cons, different]
    · simp [set, get_cons, same, inductionHypothesis]

theorem get_set (entries : Dict α) (key other : String) (value : α) :
    get (set entries key value) other = if other = key then some value else get entries other := by
  by_cases same : other = key
  · simp [same]
  · simp [same, get_set_ne entries value same]

/-- Writing the value a key already has changes nothing. -/
theorem set_eq_self (entries : Dict α) (key : String) (value : α)
    (present : get entries key = some value) : set entries key value = entries := by
  induction entries with
  | nil => simp at present
  | cons entry rest inductionHypothesis =>
    obtain ⟨other, old⟩ := entry
    rw [get_cons] at present
    by_cases same : other = key
    · subst same
      simp only [↓reduceIte, Option.some.injEq] at present
      simp [set, present]
    · rw [if_neg (Ne.symm same)] at present
      simp [set, same, inductionHypothesis present]

/-- A write leaves the dictionary as it was exactly when it rewrites what is there. -/
theorem set_eq_self_iff (entries : Dict α) (key : String) (value : α) :
    set entries key value = entries ↔ get entries key = some value := by
  constructor
  · intro unchanged
    rw [← unchanged, get_set_self]
  · exact set_eq_self entries key value

theorem get_eq_none_iff (entries : Dict α) (key : String) :
    get entries key = none ↔ key ∉ entries.map Prod.fst := by
  induction entries with
  | nil => simp
  | cons entry rest inductionHypothesis =>
    obtain ⟨head, value⟩ := entry
    rw [get_cons]
    by_cases same : key = head
    · simp [same]
    · simp [same, inductionHypothesis]

theorem mem_of_get {entries : Dict α} {key : String} {value : α} (found : get entries key = some value) :
    (key, value) ∈ entries := by
  obtain ⟨before, after, rfl, _⟩ := List.lookup_eq_some_iff.mp found
  exact List.mem_append_right before List.mem_cons_self

theorem get_erase (entries : Dict α) (key other : String) :
    get (erase entries key) other = if other = key then none else get entries other := by
  induction entries with
  | nil => simp [erase]
  | cons entry rest inductionHypothesis =>
    obtain ⟨head, value⟩ := entry
    rw [erase] at inductionHypothesis
    by_cases removed : head = key
    · rw [erase, List.filter_cons_of_neg (by simpa using removed), inductionHypothesis, get_cons]
      by_cases same : other = key
      · simp [same]
      · rw [if_neg same, if_neg same, if_neg (by rw [removed]; exact same)]
    · rw [erase, List.filter_cons_of_pos (by simpa using removed), get_cons, get_cons, inductionHypothesis]
      by_cases same : other = head
      · rw [if_pos same, if_pos same, if_neg (by rw [same]; exact removed)]
      · rw [if_neg same, if_neg same]

/-- A write adds no key but its own, and none twice. -/
theorem keys_set (entries : Dict α) (key : String) (value : α) (names : (entries.map Prod.fst).Nodup) :
    ((set entries key value).map Prod.fst).Nodup ∧
      ∀ name, name ∈ (set entries key value).map Prod.fst → name = key ∨ name ∈ entries.map Prod.fst := by
  induction entries with
  | nil => simp [set]
  | cons entry rest inductionHypothesis =>
    obtain ⟨other, old⟩ := entry
    rw [List.map_cons, List.nodup_cons] at names
    obtain ⟨nodup, subset⟩ := inductionHypothesis names.2
    rw [set]
    by_cases same : other = key
    · rw [if_pos same]
      subst same
      simp only [List.map_cons, List.nodup_cons, List.mem_cons]
      exact ⟨names, fun name member => .inr member⟩
    · rw [if_neg same]
      simp only [List.map_cons, List.nodup_cons, List.mem_cons]
      refine ⟨⟨fun again => ?_, nodup⟩, fun name member => ?_⟩
      · cases subset other again with
        | inl equal => exact same equal
        | inr inside => exact names.1 inside
      · cases member with
        | inl first => exact .inr (.inl first)
        | inr later =>
          cases subset name later with
          | inl equal => exact .inl equal
          | inr inside => exact .inr (.inr inside)

theorem set_of_none (entries : Dict α) {key : String} (value : α) (absent : get entries key = none) :
    set entries key value = entries ++ [(key, value)] := by
  induction entries with
  | nil => rfl
  | cons entry rest inductionHypothesis =>
    obtain ⟨other, old⟩ := entry
    rw [get_cons] at absent
    split at absent
    · cases absent
    · rename_i different
      rw [set, if_neg (Ne.symm different), inductionHypothesis absent, List.cons_append]

/-- Keys that are all different are appended in their order. -/
theorem foldl_set_apart {β : Type _} (items : List β) (key : β → String) (value : β → α) (entries : Dict α)
    (apart : (entries.map Prod.fst ++ items.map key).Nodup) :
    items.foldl (fun entries item => set entries (key item) (value item)) entries =
      entries ++ items.map fun item => (key item, value item) := by
  induction items generalizing entries with
  | nil => simp
  | cons item rest inductionHypothesis =>
    have absent : get entries (key item) = none := by
      rw [get_eq_none_iff]
      rw [List.map_cons, List.nodup_append] at apart
      exact fun member => apart.2.2 _ member _ List.mem_cons_self rfl
    have restApart : ((entries ++ [(key item, value item)]).map Prod.fst ++ rest.map key).Nodup := by
      simpa using apart
    rw [List.foldl_cons, set_of_none entries _ absent, inductionHypothesis _ restApart, List.map_cons,
      List.append_assoc]
    rfl

/-- Each of the keys is found again. -/
theorem get_map_apart {β : Type _} {items : List β} {key : β → String} (value : β → α)
    (apart : (items.map key).Nodup) {item : β} (member : item ∈ items) :
    get (items.map fun item => (key item, value item)) (key item) = some (value item) := by
  induction items with
  | nil => cases member
  | cons first rest inductionHypothesis =>
    rw [List.map_cons, List.nodup_cons] at apart
    rw [List.map_cons, get_cons]
    cases List.mem_cons.mp member with
    | inl same => rw [if_pos (by rw [same]), same]
    | inr later =>
      have different : key item ≠ key first := fun same => apart.1 (same ▸ List.mem_map_of_mem later)
      rw [if_neg different, inductionHypothesis apart.2 later]

theorem length_erase_lt {entries : Dict α} {key : String} {value : α} (found : get entries key = some value) :
    (erase entries key).length < entries.length := by
  refine List.length_filter_lt_length_iff_exists.mpr ⟨(key, value), mem_of_get found, ?_⟩
  simp

/-- Of names that are all different, one among the first that outnumber the entries is not
taken: the first such name. -/
theorem exists_get_none (entries : Dict α) {names : Nat → String} (different : Function.Injective names) :
    ∃ count ≤ entries.length, get entries (names count) = none ∧
      ∀ earlier < count, get entries (names earlier) ≠ none := by
  classical
  have free : ∃ count, get entries (names count) = none ∧ count ≤ entries.length := by
    by_contra noneFree
    have listed : (List.range (entries.length + 1)).map names ⊆ entries.map Prod.fst := by
      intro name member
      obtain ⟨count, inside, rfl⟩ := List.mem_map.mp member
      have bounded : count ≤ entries.length := Nat.lt_succ_iff.mp (List.mem_range.mp inside)
      by_contra absent
      exact noneFree ⟨count, (get_eq_none_iff entries _).mpr absent, bounded⟩
    have distinct : ((List.range (entries.length + 1)).map names).Nodup := List.nodup_range.map different
    have longer := (distinct.subperm listed).length_le
    simp only [List.length_map, List.length_range] at longer
    omega
  have least := Nat.find_spec free
  refine ⟨Nat.find free, least.2, least.1, fun earlier before absent => ?_⟩
  have bounded : earlier ≤ entries.length := Nat.le_trans (Nat.le_of_lt before) least.2
  exact Nat.find_min free before ⟨absent, bounded⟩

end Dict

end SecretWeb.Python
