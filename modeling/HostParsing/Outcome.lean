/-!
# Outcomes

How a call can end that may have to wait for others. Besides an answer and a
refusal there is the call that has not returned, because what it waits for has not
come. If it can come no more, the call never returns.
-/

namespace HostParsing

/-- How a call can end. -/
inductive Outcome (ε α : Type)
  | done (a : α)
  /-- The call is refused. -/
  | refused (reason : ε)
  /-- The call still waits. -/
  | stuck
deriving DecidableEq, Repr

namespace Outcome

variable {ε ε' α β : Type}

/-- The outcome with another answer. -/
def map (f : α → β) : Outcome ε α → Outcome ε β
  | done a => .done (f a)
  | refused reason => .refused reason
  | stuck => .stuck

/-- Go on with the answer of an outcome. -/
def bind (outcome : Outcome ε α) (f : α → Outcome ε β) : Outcome ε β :=
  match outcome with
  | done a => f a
  | refused reason => .refused reason
  | stuck => .stuck

/-- The outcome with the reason of a refusal told in another way. -/
def mapRefused (f : ε → ε') : Outcome ε α → Outcome ε' α
  | done a => .done a
  | refused reason => .refused (f reason)
  | stuck => .stuck

/-- Whether the call still waits. -/
def isStuck : Outcome ε α → Bool
  | stuck => true
  | _ => false

/-- The outcome of a call that never waits. -/
def ofExcept : Except ε α → Outcome ε α
  | .ok a => .done a
  | .error reason => .refused reason

theorem refused_ne_done (reason : ε) (a : α) : (refused reason : Outcome ε α) ≠ .done a := nofun

theorem stuck_ne_done (a : α) : (stuck : Outcome ε α) ≠ .done a := nofun

@[simp] theorem isStuck_eq_true_iff {outcome : Outcome ε α} :
    outcome.isStuck = true ↔ outcome = .stuck := by
  cases outcome <;> simp [isStuck]

@[simp] theorem isStuck_eq_false_iff {outcome : Outcome ε α} :
    outcome.isStuck = false ↔ outcome ≠ .stuck := by
  cases outcome <;> simp [isStuck]

@[simp] theorem map_done (f : α → β) (a : α) : (done a : Outcome ε α).map f = .done (f a) := rfl

@[simp] theorem bind_done (f : α → Outcome ε β) (a : α) : (done a).bind f = f a := rfl

@[simp] theorem ofExcept_ok (a : α) : ofExcept (.ok a : Except ε α) = .done a := rfl

end Outcome
end HostParsing
