import HostParsing.Fault
/-!
# Refusals

What a host is told when a call is refused. A host passes signed 32-bit indices,
so it can be wrong in two ways that the engine cannot: an index can be negative,
and an answer can be too large for it. Everything else is a fault of the engine,
of which the host is told the kind and the whole text.
-/

namespace HostParsing.Host

/-- The index parameters of the host's calls. -/
inductive Parameter
  | index
  | first
  | last
  | source
  | count
  | offset
deriving DecidableEq, Repr

/-- How a parameter is named to the host. -/
def Parameter.describe : Parameter → String
  | .index => "index"
  | .first => "start"
  | .last => "end"
  | .source => "from"
  | .count => "len"
  | .offset => "offset"

/-- Why a host's call was refused. -/
inductive Refusal
  /-- An index below 0. -/
  | negative (parameter : Parameter) (value : Int)
  /-- An answer that no index of the host can hold. -/
  | tooLarge (value : Nat)
  /-- The engine refused. -/
  | fault (fault : Fault)
deriving DecidableEq, Repr

namespace Refusal

/-- The kind of a refusal; for a fault it is the fault's own. -/
def kind : Refusal → Fault.Kind
  | negative _ _ => .invalidArgument
  | tooLarge _ => .outOfBounds
  | fault f => f.kind

/-- What is said of a refusal after its kind; for a fault it is the fault's
whole text. -/
def reason : Refusal → String
  | negative parameter value =>
    parameter.describe ++ " must not be negative, got " ++ toString value
  | tooLarge value => toString value ++ " does not fit in a host index"
  | fault f => f.message

/-- The heading of a kind. -/
def heading : Fault.Kind → String
  | .invalidArgument => "Invalid argument: "
  | .outOfBounds => "Index out of bounds: "
  | .illegalState => "Illegal state: "
  | .parseInProgress => "Parse in progress: "
  | .language => "Language error: "
  | .encoding => "Encoding error: "

/-- The text of a refusal. -/
def message (r : Refusal) : String :=
  heading r.kind ++ r.reason

end Refusal

/-- The largest index of a host. -/
def indexLimit : Nat := UInt32.size / 2 - 1

/-- An index of the host as the engine counts. -/
def indexOf (parameter : Parameter) : Int → Except Refusal Nat
  | .ofNat n => .ok n
  | .negSucc n => .error (.negative parameter (.negSucc n))

/-- A count of the engine as the host's index. -/
def hostIndex (value : Nat) : Except Refusal Nat :=
  if value ≤ indexLimit then .ok value else .error (.tooLarge value)

/-- The engine's answer, its faults told to the host. -/
def told {α : Type} (answer : Except Fault α) : Except Refusal α :=
  answer.mapError .fault

@[simp] theorem told_ok {α : Type} (a : α) : told (.ok a) = .ok a := rfl

@[simp] theorem told_error {α : Type} (f : Fault) :
    told (.error f : Except Fault α) = .error (.fault f) := rfl

theorem indexOf_eq_ok_iff {parameter : Parameter} {i : Int} {n : Nat} :
    indexOf parameter i = .ok n ↔ i = n := by
  cases i with
  | ofNat m =>
    simp only [indexOf, Except.ok.injEq, Int.ofNat_eq_natCast]
    exact Int.ofNat_inj.symm
  | negSucc m => simp [indexOf]

end HostParsing.Host
