import HostParsing.Session.Parse
/-!
# Calls on a session

What the clients of a session can ask, as data, with an engine whose behaviour is
a script. A script may look at its token, spend time, give up, or make calls on
the session itself while the parse runs; if it comes to its end and its token is
not cancelled, there is a tree. A call that waits for what the parse holds never
returns to the script, so the script does not come to its end (`Turn.waits`).
`Call.alongside` puts a call that may wait beside what the others do meanwhile, and
returns when all of them have.

`Call.run`, `runScript` and `runAll` recurse along calls, scripts and lists of
calls. A call that waits is given its company by the call around it; a call made
alone has nobody to wait for. The calls of a list are made by several clients, so a
call that waits does not keep the next one from being made.
-/

namespace HostParsing.Session

open Bench (Mode Source)

mutual

/-- What a client can ask. -/
inductive Call
  | isParsing
  | beginRound
  | endRound
  | reset
  | destroy
  | setLimit (limit : Option Nat)
  | limit
  /-- Look at the engine. -/
  | engine
  /-- Parse an input, with an older tree at hand or without. -/
  | parse (mode : Mode) (source : Source) (old : Option Nat) (script : List Step)
  | requestCancellation
  | cancelAndWait
  /-- Make a call that may wait, while the others make theirs. If it does not
  wait, theirs come after it. -/
  | alongside (waiter : Call) (others : List Call)
  /-- Look at a token, after cancelling through it if asked to. -/
  | token (number : Nat) (cancel : Bool)
  | registry (call : Registry.Call)

/-- What a scripted engine does next. -/
inductive Step
  /-- Give up if the token is cancelled. -/
  | poll
  /-- Give up if the time spent then reaches the limit. -/
  | spend (nanos : Nat)
  | giveUp
  /-- Make a call while the parse runs. -/
  | call (call : Call)

end

mutual

/-- What a call answers. -/
inductive Answer
  | done
  | flag (value : Bool)
  | round (number : Nat)
  | limit (limit : Option Nat)
  | engine (engine : Engine)
  | parsed (tree : Option Tree) (report : Report)
  | cancelled (value : Bool)
  | alongside (waiter : Turn) (others : List Turn)
  /-- A token, and whether the cancelling asked for was heeded. -/
  | token (number : Nat) (heeded : Option Bool) (token : Token)
  | registry (answer : Registry.Answer)

/-- How a call ended, and the phase of the session then. -/
inductive Turn
  | mk (outcome : Outcome Fault Answer) (phase : Phase)

/-- What a scripted engine tells of a parse: its round, its time limit, the time
spent, and the calls made while it ran. -/
inductive Report
  | mk (round : Nat) (limit : Option Nat) (spent : Nat) (during : List Turn)

end

/-- How a call ended. -/
def Turn.outcome : Turn → Outcome Fault Answer
  | .mk outcome _ => outcome

/-- The phase of the session after a call. -/
def Turn.phase : Turn → Phase
  | .mk _ phase => phase

mutual

/-- Whether a call has not returned: it waits, or a call does that is part of it. -/
def Turn.waits : Turn → Bool
  | .mk .stuck _ => true
  | .mk (.done (.alongside waiter others)) _ => waiter.waits || waitsAny others
  | .mk _ _ => false

/-- Whether one of some calls has not returned. -/
def waitsAny : List Turn → Bool
  | [] => false
  | turn :: turns => turn.waits || waitsAny turns

end

/-- What the others do while a call waits, and how their calls ended. -/
abbrev Others := Bench.Company (List Turn)

/-- A call that cannot wait and answers at once. -/
def atOnce (b : Bench) (answer : Answer) : Bench × Outcome Fault Answer × Option (List Turn) :=
  (b, .done answer, none)

/-- A call that changes the session or is refused. -/
def changing (b : Bench) (session : Outcome Fault Session) (answer : Session → Answer) :
    Bench × Outcome Fault Answer × Option (List Turn) :=
  match session with
  | .done s => ({ b with session := s }, .done (answer s), none)
  | .refused fault => (b, .refused fault, none)
  | .stuck => (b, .stuck, none)

/-- A call that destroys the session. -/
def destroying (b : Bench) : Bench × Outcome Fault Answer × Option (List Turn) :=
  let (session, outcome) := b.session.destroy
  ({ b with session }, outcome.map fun _ => .done, none)

mutual

/-- Make a call: the bench after it, how the call ended, and, if it had to wait,
what the others did. -/
def Call.run (call : Call) (others : Others) (b : Bench) :
    Bench × Outcome Fault Answer × Option (List Turn) :=
  match call with
  | .isParsing => atOnce b (.flag (b.session.phase = .parsing))
  | .beginRound => changing b (.ofExcept b.session.beginRound) fun s => .round s.begun
  | .endRound => changing b (.ofExcept b.session.endRound) fun _ => .done
  | .reset => changing b b.session.reset fun _ => .done
  | .destroy => destroying b
  | .setLimit limit => changing b (.ofExcept (b.session.setLimit limit)) fun _ => .done
  | .limit => atOnce b (.limit b.session.limit)
  | .engine => (b, b.session.withEngine.map .engine, none)
  | .parse mode source old script =>
    let (after, outcome, turns) := b.parse mode source old
      (fun number limit b => runScript script number limit 0 [] b) others
    (after, outcome.map fun (tree, report) => .parsed tree report, turns)
  | .requestCancellation =>
    let (heeded, s) := b.session.requestCancellation
    atOnce { b with session := s } (.cancelled heeded)
  | .cancelAndWait =>
    let (after, outcome, turns) := b.cancelAndWait others
    (after, outcome.map .cancelled, turns)
  | .alongside waiter beside =>
    match waiter.run (fun b => runAll beside b) b with
    | (after, outcome, some turns) =>
      atOnce after (.alongside (.mk outcome after.session.phase) turns)
    | (met, outcome, none) =>
      let (after, turns) := runAll beside met
      atOnce after (.alongside (.mk outcome met.session.phase) turns)
  | .token number cancel =>
    let (heeded, s) := if cancel then
        let (heeded, s) := b.session.cancel number
        (some heeded, s)
      else
        (none, b.session)
    atOnce { b with session := s } (.token number heeded (s.token number))
  | .registry call =>
    if b.blocks call then
      (b, .stuck, none)
    else
      match call.run b.desk with
      | .ok (answer, desk) => ({ b with desk }, .done (.registry answer), none)
      | .error fault => (b, .refused fault, none)

/-- Run a script from a step on: the bench after it, what it comes to, and what it
tells. -/
def runScript (script : List Step) (number : Nat) (limit : Option Nat) (spent : Nat)
    (during : List Turn) (b : Bench) : Bench × Bench.Verdict × Report :=
  match script with
  | [] => (b, b.verdict number, .mk number limit spent during)
  | .poll :: rest =>
    if b.isWanted number then
      runScript rest number limit spent during b
    else
      (b, .noTree, .mk number limit spent during)
  | .spend nanos :: rest =>
    if limit.any (· ≤ spent + nanos) then
      (b, .noTree, .mk number limit (spent + nanos) during)
    else
      runScript rest number limit (spent + nanos) during b
  | .giveUp :: _ => (b, .noTree, .mk number limit spent during)
  | .call call :: rest =>
    let (after, outcome, _) := call.run (fun b => (b, [])) b
    let turn := Turn.mk outcome after.session.phase
    if turn.waits then
      (after, .never, .mk number limit spent (during ++ [turn]))
    else
      runScript rest number limit spent (during ++ [turn]) after

/-- Make calls one after the other, each alone. -/
def runAll (calls : List Call) (b : Bench) : Bench × List Turn :=
  match calls with
  | [] => (b, [])
  | call :: rest =>
    let (met, outcome, _) := call.run (fun b => (b, [])) b
    let (after, turns) := runAll rest met
    (after, .mk outcome met.session.phase :: turns)

end

end HostParsing.Session
