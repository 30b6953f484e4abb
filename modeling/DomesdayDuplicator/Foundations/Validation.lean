/-!
# Checks that collect their errors

A check yields a value or everything it found wrong. Checks made one after the other
all report; together they yield a value exactly when each of them does.
-/

namespace Validation

universe u v w

variable {Error : Type u} {α : Type v} {β : Type w}

abbrev Checked (Error : Type u) (α : Type v) := Except (List Error) α

def errors : Checked Error α → List Error
  | .ok _ => []
  | .error reasons => reasons

def refuse (reason : Error) : Checked Error α := .error [reason]

/-- One more check after those made so far. -/
def also (sofar : Checked Error (α → β)) (next : Checked Error α) : Checked Error β :=
  match sofar, next with
  | .ok f, .ok value => .ok (f value)
  | sofar, next => .error (errors sofar ++ errors next)

/-- One more check whose value is not used. -/
def alongside (sofar : Checked Error β) (next : Checked Error α) : Checked Error β :=
  also (also (.ok fun b _ => b) sofar) next

theorem also_eq_ok {sofar : Checked Error (α → β)} {next : Checked Error α} {result : β} :
    also sofar next = .ok result ↔
      ∃ f value, sofar = .ok f ∧ next = .ok value ∧ result = f value := by
  constructor
  · intro passed
    cases sofar with
    | error reasons => cases passed
    | ok f =>
      cases next with
      | error reasons => cases passed
      | ok value => exact ⟨f, value, rfl, rfl, (Except.ok.inj passed).symm⟩
  · rintro ⟨f, value, rfl, rfl, rfl⟩
    rfl

theorem alongside_eq_ok {sofar : Checked Error β} {next : Checked Error α} {result : β} :
    alongside sofar next = .ok result ↔ sofar = .ok result ∧ ∃ value, next = .ok value := by
  constructor
  · intro passed
    obtain ⟨f, value, first, second, rfl⟩ := also_eq_ok.mp passed
    obtain ⟨g, b, rfl', one, rfl⟩ := also_eq_ok.mp first
    obtain rfl := Except.ok.inj rfl'
    exact ⟨one, value, second⟩
  · rintro ⟨rfl, value, rfl⟩
    rfl

end Validation
