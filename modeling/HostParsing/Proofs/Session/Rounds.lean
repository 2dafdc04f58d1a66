import HostParsing.Proofs.Session.Held
/-!
# Rounds and their tokens

`Reached` is every bench that clients can bring about: by calls that have come to their
end or wait for others, with all that their engines did meanwhile, and by parses and
calls to destroy that have come to some stage while others call. A parse that has asked
for the engine may be given it when much has happened since, and a session that was
destroyed while a parse ran has its engine until the parse is over.

At any time at most one round is active, the one that began last; its token has not
expired, and those of all other rounds have. Rounds are numbered from 1, one for each
operation that starts one (`rounds_of_reached`).
-/

namespace HostParsing.Bench

open Session (Call runAll waitsAny)

/-- The benches that clients can come to, with the log of what they have done. -/
inductive Reached (limit : Option Nat) : Log → Bench → Prop
  | fresh : Reached limit [] (start limit)
  /-- A call was made by a client that no other gets in the way of. -/
  | call {log : Log} {b : Bench} (reached : Reached limit log b) (call : Call) :
    Reached limit (log ++ call.log (fun b => (b, [])) (fun _ => []) b)
      (call.run (fun b => (b, [])) b).1
  /-- A parse of a whole round, which may have waited, has entered its round. -/
  | entered {log : Log} {b : Bench} {session : Session} (reached : Reached limit log b)
      (entered : b.session.enter = .entered session) :
    Reached limit (log ++ [some session.begun]) { b with session }
  /-- A parse has locked the buffer that it reads. -/
  | locked {log : Log} {b : Bench} (reached : Reached limit log b) (input : Input) :
    Reached limit log (b.lock input)
  /-- A parse has unlocked the buffer that it has read. -/
  | unlocked {log : Log} {b : Bench} (reached : Reached limit log b) (input : Input) :
    Reached limit log (b.unlock input)
  /-- A parse has asked for the engine and read the time limit. -/
  | asked {log : Log} {b : Bench} {input : Bytes} {session : Session}
      (reached : Reached limit log b) (asks : b.session.ask input = .ok session) :
    Reached limit log { b with session }
  /-- The engine has got the input of a parse that had asked for it. -/
  | handedOver {log : Log} {b : Bench} {read : Option Nat} {session : Session}
      (reached : Reached limit log b) (waits : read ∈ b.session.waiting)
      (given : b.session.engage read = .done session) :
    Reached limit log { b with session }
  /-- A parse that had asked for the engine has found that it is given up. -/
  | turnedAway {log : Log} {b : Bench} {read : Option Nat} {fault : Fault}
      (reached : Reached limit log b) (waits : read ∈ b.session.waiting)
      (refused : b.session.engage read = .refused fault) :
    Reached limit log { b with session := b.session.withdraw read }
  /-- The engine has come to the end of a parse. -/
  | takenBack {log : Log} {b : Bench} (reached : Reached limit log b) :
    Reached limit log { b with session := b.session.takeBack }
  /-- A parse of a whole round has ended the active round. -/
  | left {log : Log} {b : Bench} (reached : Reached limit log b) :
    Reached limit log { b with session := b.session.leaveRound }
  /-- A client that waited for the engine has reset it. -/
  | reset {log : Log} {b : Bench} {session : Session} (reached : Reached limit log b)
      (resets : b.session.resetEngine = .done session) :
    Reached limit log { b with session }
  /-- A call to destroy the session has marked it, and is to wait for the engine. -/
  | marked {log : Log} {b : Bench} {session : Session} (reached : Reached limit log b)
      (marks : b.session.markDestroyed = .ok session) :
    Reached limit log { b with session }
  /-- The call that destroyed the session has the engine, and gives it up. -/
  | released {log : Log} {b : Bench} {session : Session} (reached : Reached limit log b)
      (leaves : b.session.leaving = true) (gives : b.session.giveUp = some session) :
    Reached limit log { b with session }

variable {limit : Option Nat} {log : Log} {b : Bench}

theorem Reached.starts (reached : Reached limit log b) : (start limit).Starts log b := by
  induction reached with
  | fresh => exact .refl _
  | call _ call ih => exact ih.trans (call.run_starts (fun b => .refl b) _)
  | entered _ entered ih => exact ih.trans (enter_starts entered)
  | locked | unlocked => rename_i ih; exact ih.of_session rfl
  | asked _ asks ih => exact ih.quiet (Session.happens_of_ask asks) rfl
  | handedOver _ waits given ih =>
    exact ih.quiet ((Session.happens_of_engage waits).1 _ given) rfl
  | turnedAway _ waits refused ih =>
    exact ih.quiet ((Session.happens_of_engage waits).2 _ refused) rfl
  | takenBack _ ih => exact ih.quiet .tookBack rfl
  | left _ ih => exact ih.leaveRound
  | reset _ resets ih => exact ih.quiet (Session.happens_of_resetEngine resets) rfl
  | marked _ marks ih => exact ih.quiet (Session.happens_of_markDestroyed marks) rfl
  | released _ leaves gives ih => exact ih.quiet (Session.happens_of_giveUp leaves gives) rfl

end HostParsing.Bench
