import HostParsing.Registry.Call
import HostParsing.Session.Basic
import HostParsing.Tree.Basic
/-!
# Parses

How a parse goes through a session. The input is looked up first, so a stale
handle is told before anything is asked of the session. A parse within a round
needs an active one. A parse of a whole round begins one and ends the active
round when it returns; if a cancelled round is active it waits for the end of
that, and what the others do meanwhile is its `Company`. A waiting parse has
settled which buffer it reads, but reads it only when the engine gets it.

A parse of a buffer locks it before it asks for the engine, and keeps it locked until
it returns (`holding`). Who needs the buffer meanwhile waits: from inside the parse
that is for ever.

The engine's own part is a `Behaviour`: given its round and its time limit it may
do anything at the bench and comes to a tree or not. If it waits for what the parse
itself holds, it never comes to an end, and the parse does not return.
-/

namespace HostParsing

/-- What the clients of a session work with. -/
structure Bench where
  session : Session
  desk : Desk
  /-- The trees of successful parses, oldest first. -/
  trees : Array Tree
  /-- The buffers that parses hold. -/
  locked : List BufferId

namespace Bench

/-- A bench with a fresh session, an empty registry and no trees. -/
def start (limit : Option Nat) : Bench :=
  ⟨Session.start limit, Desk.empty, #[], []⟩

/-- The content of a buffer. -/
def content (b : Bench) (id : BufferId) : Bytes :=
  (b.desk.registry.buffer id).bytes

/-- Where the input of a parse comes from. -/
inductive Source
  | bytes (input : Bytes)
  | handle (raw : UInt64)
deriving DecidableEq, Repr

/-- An input whose buffer is settled. -/
inductive Input
  | bytes (input : Bytes)
  | buffer (id : BufferId)

/-- Settle which buffer is to be read. -/
def settle (b : Bench) : Source → Except Fault Input
  | .bytes input => .ok (.bytes input)
  | .handle raw => (b.desk.registry.resolveRaw raw).map .buffer

/-- What an input holds now. -/
def readInput (b : Bench) : Input → Bytes
  | .bytes input => input
  | .buffer id => b.content id

/-- The buffer of an input, if it is one. -/
def Input.buffer? : Input → Option BufferId
  | .bytes _ => none
  | .buffer id => some id

/-- Whether a parse holds the buffer of an input. -/
def isLocked (b : Bench) (input : Input) : Bool :=
  input.buffer?.any fun id => b.locked.contains id

/-- The bench with the buffer of an input locked. -/
def lock (b : Bench) (input : Input) : Bench :=
  { b with locked := input.buffer?.toList ++ b.locked }

/-- The bench with the buffer of an input unlocked. -/
def unlock (b : Bench) (input : Input) : Bench :=
  { b with locked := input.buffer?.toList.foldl List.erase b.locked }

/-- Whether a call on the registry has to wait for a buffer that a parse holds. -/
def blocks (b : Bench) (call : Registry.Call) : Bool :=
  (call.buffer? b.desk).any fun id => b.locked.contains id

/-- Do something while the buffer of an input is locked. Who does not return keeps it. -/
def holding {β : Type} (b : Bench) (input : Input) (act : Bench → Bench × Outcome Fault β) :
    Bench × Outcome Fault β :=
  if b.isLocked input then
    (b, .stuck)
  else
    match act (b.lock input) with
    | (after, .stuck) => (after, .stuck)
    | (after, outcome) => (after.unlock input, outcome)

/-- Whether a parse runs in the active round or in one of its own. -/
inductive Mode
  | withinRound
  | wholeRound
deriving DecidableEq, Repr

/-- What the engine comes to. -/
inductive Verdict
  | tree
  | noTree
  /-- It comes to nothing, because it waits for what its own parse holds. -/
  | never
deriving DecidableEq, Repr

/-- What the engine does with an input, given its round and its time limit: what it
comes to, and what it reports. -/
abbrev Behaviour (ρ : Type) := Nat → Option Nat → Bench → Bench × Verdict × ρ

/-- What the others do while a call waits, and what they report. -/
abbrev Company (α : Type) := Bench → Bench × α

/-- Whether the token of a round does not stand in the way of a tree. -/
def isWanted (b : Bench) (number : Nat) : Bool :=
  b.session.token number ≠ .cancelled

/-- What the engine comes to in a round, if the token of that decides. -/
def verdict (b : Bench) (number : Nat) : Verdict :=
  if b.isWanted number then .tree else .noTree

/-- An engine that is done at once: there is a tree unless the round is
cancelled. -/
def atOnce : Behaviour Unit :=
  fun number _ b => (b, b.verdict number, ())

/-- How a parse ends by what its engine comes to, if that may be a tree. -/
def conclude {ρ : Type} (tree : Tree) :
    Bench × Verdict × ρ → Bench × Outcome Fault (Option Tree × ρ)
  | (after, .never, _) => (after, .stuck)
  | (after, .noTree, report) =>
    ({ after with session := after.session.takeBack }, .done (none, report))
  | (after, .tree, report) =>
    ({ after with session := after.session.takeBack, trees := after.trees.push tree },
      .done (some tree, report))

/-- Run the engine on an input for a round, when a parse that has asked for it and
read its time limit then gets it. -/
def runAsked {ρ : Type} (b : Bench) (limit : Option Nat) (number : Nat) (input : Bytes)
    (old : Option Nat) (act : Behaviour ρ) : Bench × Outcome Fault (Option Tree × ρ) :=
  match b.session.engage limit with
  | .refused fault => ({ b with session := b.session.withdraw limit }, .refused fault)
  | .stuck => (b, .stuck)
  | .done session =>
    conclude (Tree.parse (old.bind (b.trees[·]?)) input) (act number limit { b with session })

/-- Run the engine on an input for a round, as soon as a parse has asked for it. -/
def runEngine {ρ : Type} (b : Bench) (number : Nat) (input : Bytes) (old : Option Nat)
    (act : Behaviour ρ) : Bench × Outcome Fault (Option Tree × ρ) :=
  match b.session.ask input with
  | .error fault => (b, .refused fault)
  | .ok session => ({ b with session } : Bench).runAsked b.session.limit number input old act

/-- Run the engine in the round that has just begun, and end the active round
when it returns. -/
def runRound {ρ : Type} (b : Bench) (input : Input) (old : Option Nat) (act : Behaviour ρ) :
    Bench × Outcome Fault (Option Tree × ρ) :=
  match b.holding input fun held =>
      held.runEngine b.session.begun (held.readInput input) old act with
  | (after, .stuck) => (after, .stuck)
  | (after, outcome) => ({ after with session := after.session.leaveRound }, outcome)

/-- Run the engine in the active round. -/
def runActive {ρ : Type} (b : Bench) (input : Input) (old : Option Nat) (act : Behaviour ρ) :
    Bench × Outcome Fault (Option Tree × ρ) :=
  match b.session.activeRound with
  | .error fault => (b, .refused fault)
  | .ok number => b.runEngine number (b.readInput input) old act

/-- A parse within the active round. -/
def parseWithin {ρ : Type} (b : Bench) (source : Source) (old : Option Nat)
    (act : Behaviour ρ) : Bench × Outcome Fault (Option Tree × ρ) :=
  match b.settle source with
  | .error fault => (b, .refused fault)
  | .ok input => b.holding input fun b => b.runActive input old act

/-- A parse of a whole round. If it has to wait, the company acts meanwhile, and
the last part of the answer is what that reports. -/
def parseRound {ρ α : Type} (b : Bench) (source : Source) (old : Option Nat)
    (act : Behaviour ρ) (company : Company α) :
    Bench × Outcome Fault (Option Tree × ρ) × Option α :=
  match b.settle source with
  | .error fault => (b, .refused fault, none)
  | .ok input =>
    match b.session.enter with
    | .refused fault => (b, .refused fault, none)
    | .entered session =>
      let (after, outcome) := runRound { b with session } input old act
      (after, outcome, none)
    | .waits =>
      let (met, report) := company b
      match met.session.enter with
      | .refused fault => (met, .refused fault, some report)
      | .entered session =>
        let (after, outcome) := runRound { met with session } input old act
        (after, outcome, some report)
      | .waits => (met, .stuck, some report)

/-- A parse in either mode. -/
def parse {ρ α : Type} (b : Bench) (mode : Mode) (source : Source) (old : Option Nat)
    (act : Behaviour ρ) (company : Company α) :
    Bench × Outcome Fault (Option Tree × ρ) × Option α :=
  match mode with
  | .withinRound =>
    let (after, outcome) := b.parseWithin source old act
    (after, outcome, none)
  | .wholeRound => b.parseRound source old act company

/-- Cancel the active round and wait for its end: whether there was one to
cancel. The company acts meanwhile. -/
def cancelAndWait {α : Type} (b : Bench) (company : Company α) :
    Bench × Outcome Fault Bool × Option α :=
  match b.session.round with
  | none => (b, .done false, none)
  | some number =>
    let (met, report) := company { b with session := (b.session.cancel number).2 }
    if met.session.round = some number then
      (met, .stuck, some report)
    else
      (met, .done true, some report)

end Bench
end HostParsing
