import SecretWeb.Python.Exceptions

/-! # Computations that keep a log

What a computation does on the way to its value or to its exception is worth as much as
either: a request that was sent stays sent when the next one raises.  A `Logged` computation
has both, and running one after another appends the logs. -/

namespace SecretWeb.Python

structure Logged (ε Event α : Type) where
  log : List Event
  outcome : Except ε α

namespace Logged

variable {ε Event α β : Type}

/-- A computation that does nothing worth noting. -/
def silent (outcome : Except ε α) : Logged ε Event α := ⟨[], outcome⟩

/-- A computation that is one event. -/
def noted (event : Event) (outcome : Except ε α) : Logged ε Event α := ⟨[event], outcome⟩

def bind (first : Logged ε Event α) (next : α → Logged ε Event β) : Logged ε Event β :=
  match first.outcome with
  | .ok value => ⟨first.log ++ (next value).log, (next value).outcome⟩
  | .error exception => ⟨first.log, .error exception⟩

instance : Monad (Logged ε Event) where
  pure value := silent (.ok value)
  bind := bind

@[simp] theorem outcome_pure (value : α) : (pure value : Logged ε Event α).outcome = .ok value := rfl

@[simp] theorem log_pure (value : α) : (pure value : Logged ε Event α).log = [] := rfl

@[simp] theorem outcome_silent (outcome : Except ε α) : (silent outcome : Logged ε Event α).outcome = outcome := rfl

@[simp] theorem log_silent (outcome : Except ε α) : (silent outcome : Logged ε Event α).log = [] := rfl

@[simp] theorem outcome_noted (event : Event) (outcome : Except ε α) : (noted event outcome).outcome = outcome := rfl

@[simp] theorem log_noted (event : Event) (outcome : Except ε α) : (noted event outcome).log = [event] := rfl

/-- The outcome is that of the computation without its log. -/
@[simp] theorem outcome_bind (first : Logged ε Event α) (next : α → Logged ε Event β) :
    (first >>= next).outcome = first.outcome >>= fun value => (next value).outcome := by
  obtain ⟨log, outcome⟩ := first
  cases outcome with
  | ok value => rfl
  | error exception => rfl

theorem bind_of_ok {first : Logged ε Event α} {value : α} (next : α → Logged ε Event β)
    (returned : first.outcome = .ok value) :
    first >>= next = ⟨first.log ++ (next value).log, (next value).outcome⟩ := by
  obtain ⟨log, outcome⟩ := first
  cases returned
  rfl

theorem bind_of_error {first : Logged ε Event α} {exception : ε} (next : α → Logged ε Event β)
    (raised : first.outcome = .error exception) : first >>= next = ⟨first.log, .error exception⟩ := by
  obtain ⟨log, outcome⟩ := first
  cases raised
  rfl

/-- Only the value is worked on after the last event. -/
theorem log_bind_pure (first : Logged ε Event α) (convert : α → β) :
    (first >>= fun value => pure (convert value)).log = first.log := by
  obtain ⟨log, outcome⟩ := first
  cases outcome with
  | ok value => exact List.append_nil log
  | error exception => rfl

@[simp] theorem silent_bind (outcome : Except ε α) (next : α → Logged ε Event β) :
    silent outcome >>= next = match outcome with
      | .ok value => next value
      | .error exception => silent (.error exception) := by
  cases outcome with
  | ok value => rfl
  | error exception => rfl

instance : LawfulMonad (Logged ε Event) := LawfulMonad.mk' _
  (fun first => by
    obtain ⟨log, outcome⟩ := first
    cases outcome with
    | ok value =>
      show (⟨log ++ [], .ok value⟩ : Logged ε Event _) = _
      rw [List.append_nil]
    | error exception => rfl)
  (fun value next => rfl)
  (fun first next last => by
    obtain ⟨log, outcome⟩ := first
    cases outcome with
    | error exception => rfl
    | ok value =>
      show (⟨log ++ (next value).log, (next value).outcome⟩ : Logged ε Event _) >>= last =
        ⟨log ++ (next value >>= last).log, (next value >>= last).outcome⟩
      cases returned : (next value).outcome with
      | error exception =>
        rw [bind_of_error last returned]
        rfl
      | ok result =>
        rw [bind_of_ok last returned, ← List.append_assoc]
        rfl)

end Logged

end SecretWeb.Python
