import SecretWeb.Shamir.Field
import SecretWeb.Python.Json

/-! # `ShamirSecret` objects

One class plays dealer and decoder; its attributes are one record.  The identity fields
are whatever JSON value was last assigned to them, since a decoder copies them from the
shares it accepts. -/

namespace SecretWeb.Shamir

open SecretWeb.Python

structure ShamirSecret where
  readyToDecode : Bool
  treshold : Int
  shares : Int
  name : Json
  owner : Json
  uuid : Json
  secretMatrix : List (List Point)
  creationDate : Json
  secretHash : Json
  decodingParticipantsKeys : List (List Point)
  bytesPerInteger : Nat

namespace ShamirSecret

/-- The object `__init__` leaves behind when it does not raise. -/
def fresh (name owner : Json) (shares treshold : Int) (uuid4 : String) : ShamirSecret where
  readyToDecode := false
  treshold := treshold
  shares := shares
  name := name
  owner := owner
  uuid := .str uuid4
  secretMatrix := []
  creationDate := .str "1800-01-01T00:00:00+00:00"
  secretHash := .null
  decodingParticipantsKeys := []
  bytesPerInteger := 8

def init (name owner : Json) (shares treshold : Int) (uuid4 : String) :
    Except PyException ShamirSecret :=
  if shares < 2 then .error (.valueError "shares must be at least 2")
  else if treshold < 2 then .error (.valueError "treshold must be at least 2")
  else if treshold > shares then
    .error (.valueError "treshold cannot exceed the number of shares")
  else .ok (fresh name owner shares treshold uuid4)

/-- The one spec of the constructor: it accepts exactly `2 <= treshold <= shares`. -/
theorem init_eq_ok {name owner : Json} {shares treshold : Int} {uuid4 : String}
    {object : ShamirSecret} :
    init name owner shares treshold uuid4 = .ok object ↔
      2 ≤ treshold ∧ treshold ≤ shares ∧ object = fresh name owner shares treshold uuid4 := by
  unfold init
  split
  · simp only [reduceCtorEq, false_iff]
    omega
  · split
    · simp only [reduceCtorEq, false_iff]
      omega
    · split
      · simp only [reduceCtorEq, false_iff]
        omega
      · simp only [Except.ok.injEq, eq_comm (a := object)]
        constructor
        · intro same
          exact ⟨by omega, by omega, same⟩
        · exact fun accepted => accepted.2.2

theorem init_of_valid (name owner : Json) {shares treshold : Int} (uuid4 : String)
    (lower : 2 ≤ treshold) (upper : treshold ≤ shares) :
    init name owner shares treshold uuid4 = .ok (fresh name owner shares treshold uuid4) :=
  init_eq_ok.mpr ⟨lower, upper, rfl⟩

end ShamirSecret

end SecretWeb.Shamir
