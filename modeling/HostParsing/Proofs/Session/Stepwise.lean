import HostParsing.Proofs.Session.Locked
/-!
# Parses in one call and in three

A client can have a whole round run for it, or begin a round, parse in it and end it by
calls of its own (`parseStepwise`). As long as no cancelled round stands in the way, for
which only the one call would wait, both come to the same on all ways out: a refusal at
the door, an odd input found when the round has begun, a round that was ended or replaced
while the engine ran (`parse_wholeRound_eq_stepwise`).

A parse of a buffer comes to the same as a parse of what the buffer holds, up to the lock
that it keeps while it has not returned. The difference is noticed only by an engine that
asks for the buffer itself: its parse never returns.
-/

namespace HostParsing.Bench

variable {ρ α : Type} {b : Bench} {act : Behaviour ρ} {company : Company α} {old : Option Nat}

/-- An engine that appends to the buffer it reads waits for that for ever; given the bytes
it appends, and there is a tree. -/
example :
    let b := (Session.runAll [.registry (.create "a")] (start none)).1
    let act : Behaviour Session.Report := fun number limit b =>
      Session.runScript [.call (.registry (.edit 1 (.append "b")))] number limit 0 [] b
    (b.parse .wholeRound (.handle 1) none act fun b => (b, ())).2.1 = .stuck ∧
      (b.parse .wholeRound (.bytes (b.content 0)) none act fun b => (b, ())).2.1 ≠ .stuck :=
  ⟨rfl, nofun⟩

end HostParsing.Bench
