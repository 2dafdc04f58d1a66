import HostParsing.Host.Cache
import HostParsing.Session.Parse
import HostParsing.Tree.Reading
/-!
# The host's parser

A parse session as a host sees it: texts are handles of the host's cache, time
limits are microseconds, and a limit of 0 stands for none. The engine is done at
once, so a parse yields a tree unless its round is cancelled, and no call finds the
engine or a text held by one. `Call.run` recurses
along a call; as for sessions, `Call.alongside` puts a call that may wait beside
what the others do meanwhile.
-/

namespace HostParsing.Host.Parser

open Bench (Mode)

/-- What the root of every tree is called. -/
def rootKind : String := "document"

/-- Nanoseconds in a microsecond. -/
def nanosPerMicro : Nat := 1000

/-- What a host can ask of its parser, and of the cache that it shares. -/
inductive Call
  | beginRound
  | endRound
  | reset
  | destroy
  /-- Parse the text behind a handle, with an older tree at hand or without. -/
  | parse (mode : Mode) (raw : UInt64) (old : Option Nat)
  /-- Copy a tree, adjusted for an edit. -/
  | withEdit (tree : Nat) (edit : TreeEdit)
  | requestCancellation
  | cancelAndWait
  | setLimit (micros : UInt64)
  | limit
  | cache (call : Cache.Call)
  /-- Make a call that may wait, while the others make theirs. If it does not
  wait, theirs come after it. -/
  | alongside (waiter : Call) (others : List Call)

/-- What the parser answers. -/
inductive Answer
  | done
  | tree (tree : Option Tree)
  /-- The number of a copied tree, if there was one to copy. -/
  | copied (number : Option Nat)
  | cancelled (value : Bool)
  | micros (value : Nat)
  | cache (answer : Cache.Answer)
  | alongside (waiter : Outcome Refusal Answer) (others : List (Outcome Refusal Answer))

/-- How a host's call ended. -/
abbrev Reply := Outcome Refusal Answer

/-- What the others do while a call waits, and how their calls ended. -/
abbrev Others := Bench.Company (List Reply)

/-- A bench with a fresh parser, an empty cache and no trees. -/
def start : Bench := Bench.start none

/-- The time limit in force, in microseconds, and 0 for none. -/
def limitMicros (s : Session) : Nat :=
  (s.limit.map (· / nanosPerMicro)).getD 0

/-- A call that changes the session or is refused. -/
def changing (b : Bench) (session : Outcome Fault Session) :
    Bench × Reply × Option (List Reply) :=
  match session with
  | .done s => ({ b with session := s }, .done .done, none)
  | .refused fault => (b, .refused (.fault fault), none)
  | .stuck => (b, .stuck, none)

/-- A call that destroys the session. -/
def destroying (b : Bench) : Bench × Reply × Option (List Reply) :=
  let (session, outcome) := b.session.destroy
  ({ b with session }, (outcome.map fun _ => .done).mapRefused .fault, none)

mutual

/-- Make a call: the bench after it, how the call ended, and, if it had to wait,
what the others did. -/
def Call.run (call : Call) (others : Others) (b : Bench) :
    Bench × Reply × Option (List Reply) :=
  match call with
  | .beginRound => changing b (.ofExcept b.session.beginRound)
  | .endRound => changing b (.ofExcept b.session.endRound)
  | .reset => changing b b.session.reset
  | .destroy => destroying b
  | .parse mode raw old =>
    let (after, outcome, replies) := b.parse mode (.handle raw) old Bench.atOnce others
    (after, (outcome.map fun (tree, _) => .tree tree).mapRefused .fault, replies)
  | .withEdit number edit =>
    match b.trees[number]? with
    | some tree =>
      ({ b with trees := b.trees.push (.edited tree edit) },
        .done (.copied (some b.trees.size)), none)
    | none => (b, .done (.copied none), none)
  | .requestCancellation =>
    let (heeded, s) := b.session.requestCancellation
    ({ b with session := s }, .done (.cancelled heeded), none)
  | .cancelAndWait =>
    let (after, outcome, replies) := b.cancelAndWait others
    (after, (outcome.map .cancelled).mapRefused .fault, replies)
  | .setLimit micros =>
    changing b (.ofExcept (b.session.setLimit (some (micros.toNat * nanosPerMicro))))
  | .limit => (b, .done (.micros (limitMicros b.session)), none)
  | .cache call =>
    match call.run b.desk.registry with
    | .ok (answer, registry) =>
      ({ b with desk := { b.desk with registry } }, .done (.cache answer), none)
    | .error refusal => (b, .refused refusal, none)
  | .alongside waiter beside =>
    match waiter.run (fun b => runAll beside b) b with
    | (after, outcome, some replies) => (after, .done (.alongside outcome replies), none)
    | (met, outcome, none) =>
      let (after, replies) := runAll beside met
      (after, .done (.alongside outcome replies), none)

/-- Make calls one after the other, each alone. -/
def runAll (calls : List Call) (b : Bench) : Bench × List Reply :=
  match calls with
  | [] => (b, [])
  | call :: rest =>
    let (met, reply, _) := call.run (fun b => (b, [])) b
    let (after, replies) := runAll rest met
    (after, reply :: replies)

end

end HostParsing.Host.Parser
