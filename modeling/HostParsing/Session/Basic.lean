import HostParsing.Fault
import HostParsing.Bytes.Basic
import HostParsing.Outcome
/-!
# Parse sessions

A session guards one engine. Parses happen in rounds, at most one at a time, and
every round has a token through which it can be cancelled until it ends. Rounds
are numbered from 1 in the order in which they begin; the token numbered 0
belongs to no round. While a parse runs it holds the engine, and a call that
needs the engine then waits for it, which `Outcome.stuck` stands for; from inside
that parse it waits for ever.

A call that may wait for the engine has done its part with the session before, and
others may call in between. So it comes in stages: a parse reads the time limit
(`ask`) and is given the engine later (`engage`), a session is marked as destroyed
(`markDestroyed`) and gives its engine up later (`giveUp`). The session keeps what
those who wait have settled (`waiting`, `leaving`). `handOver`, `reset` and
`destroy` are all stages of a call in a row.

Times are nanoseconds. `beginRound`, `endRound`, `cancel` and the other functions
here are the single steps of a session; how a parse puts them together is in
`HostParsing.Session.Parse`.
-/

namespace HostParsing

/-- The state of a cancellation token. -/
inductive Token
  | active
  | cancelled
  /-- The token's round has ended. -/
  | expired
deriving DecidableEq, Repr

namespace Token

/-- A request to cancel: an active token becomes cancelled. -/
def cancel : Token → Token
  | active => .cancelled
  | cancelled => .cancelled
  | expired => .expired

/-- Whether a request to cancel is heeded: an expired token is past that. -/
def heeds : Token → Bool
  | active | cancelled => true
  | expired => false

end Token

/-- What can be seen of the engine behind a session. -/
structure Engine where
  /-- How many parses it was asked for. -/
  parses : Nat
  /-- How often it was reset. -/
  resets : Nat
  /-- The time limit it was given last. -/
  limit : Option Nat
deriving DecidableEq, Repr

/-- Where a session is in its life. -/
inductive Phase
  | idle
  | parsing
  | destroyed
deriving DecidableEq, Repr

/-- A guard around one engine. -/
structure Session where
  /-- The number of the active round. -/
  round : Option Nat
  /-- How many rounds have begun. -/
  begun : Nat
  /-- The tokens, by the numbers of their rounds. -/
  tokens : Array Token
  /-- The time limit for parses to come. -/
  limit : Option Nat
  destroyed : Bool
  /-- Whether the call that destroyed the session still waits for the engine. -/
  leaving : Bool
  /-- The engine, until the destroyed session has given it up. -/
  engine : Option Engine
  /-- Whether a parse holds the engine. -/
  running : Bool
  /-- The time limits that those parses have read which wait for the engine. -/
  waiting : List (Option Nat)
deriving DecidableEq, Repr

namespace Session

/-- A session around a fresh engine that has the given time limit. -/
def start (limit : Option Nat) : Session where
  round := none
  begun := 0
  tokens := #[.active]
  limit := limit
  destroyed := false
  leaving := false
  engine := some ⟨0, 0, limit⟩
  running := false
  waiting := []

/-- Where the session is in its life. -/
def phase (s : Session) : Phase :=
  if s.destroyed then .destroyed else if s.round.isSome then .parsing else .idle

/-- The token of a round; a round that has not begun has none to cancel. -/
def token (s : Session) (number : Nat) : Token :=
  s.tokens[number]?.getD .expired

/-- The session with the token of a round in another state. -/
def setToken (s : Session) (number : Nat) (token : Token) : Session :=
  { s with tokens := s.tokens.setIfInBounds number token }

/-- Cancel through a token: whether it was heeded, and the session after it. -/
def cancel (s : Session) (number : Nat) : Bool × Session :=
  ((s.token number).heeds, s.setToken number (s.token number).cancel)

/-- The session with the next round begun. -/
def install (s : Session) : Session :=
  { s with
    round := some (s.begun + 1)
    begun := s.begun + 1
    tokens := s.tokens.push .active }

/-- Begin a round, if none is active. -/
def beginRound (s : Session) : Except Fault Session :=
  if s.destroyed then
    .error .sessionDestroyed
  else if s.round.isSome then
    .error .parseInProgress
  else
    .ok s.install

/-- End the active round: its token expires. -/
def endRound (s : Session) : Except Fault Session :=
  match s.round with
  | some number => .ok { s.setToken number .expired with round := none }
  | none => .error .noRoundToEnd

/-- End the active round, whichever it is, if there is one. -/
def leaveRound (s : Session) : Session :=
  match s.endRound with
  | .ok after => after
  | .error _ => s

/-- The round that a parse runs in. -/
def activeRound (s : Session) : Except Fault Nat :=
  if s.destroyed then
    .error .sessionDestroyed
  else
    match s.round with
    | some number => .ok number
    | none => .error .noRound

/-- Cancel the active round: whether there was one to cancel, and the session
after it. -/
def requestCancellation (s : Session) : Bool × Session :=
  match s.round with
  | some number => s.cancel number
  | none => (false, s)

/-- Limit the time of parses to come. A limit of 0 is no limit. -/
def setLimit (s : Session) (limit : Option Nat) : Except Fault Session :=
  if s.destroyed then
    .error .sessionDestroyed
  else
    .ok { s with limit := limit.filter (· ≠ 0) }

/-- The engine, when nobody holds it. -/
def freeEngine (s : Session) : Outcome Fault Engine :=
  if s.running then
    .stuck
  else
    match s.engine with
    | some engine => .done engine
    | none => .refused .sessionDestroyed

/-- The engine of a session that is not destroyed when the call comes. -/
def withEngine (s : Session) : Outcome Fault Engine :=
  if s.destroyed then .refused .sessionDestroyed else s.freeEngine

/-- Reset the engine, after the wait for it. -/
def resetEngine (s : Session) : Outcome Fault Session :=
  s.freeEngine.map fun engine =>
    { s with engine := some { engine with resets := engine.resets + 1 } }

/-- Reset the engine. -/
def reset (s : Session) : Outcome Fault Session :=
  if s.destroyed then .refused .sessionDestroyed else s.resetEngine

/-- Mark the session as destroyed, if no round is active. Its engine is still to be
given up. -/
def markDestroyed (s : Session) : Except Fault Session :=
  if s.destroyed then
    .error .sessionDestroyed
  else if s.round.isSome then
    .error .roundActive
  else
    .ok { s with destroyed := true, leaving := true }

/-- Give the engine up, once nobody holds it. -/
def giveUp (s : Session) : Option Session :=
  if s.running then none else some { s with leaving := false, engine := none }

/-- Destroy the session: what is left of it, and whether the call has returned or
still waits for a parse that holds the engine. -/
def destroy (s : Session) : Session × Outcome Fault Unit :=
  match s.markDestroyed with
  | .error fault => (s, .refused fault)
  | .ok marked =>
    match marked.giveUp with
    | some gone => (gone, .done ())
    | none => (marked, .stuck)

/-- Ask for the engine, with an input for it: the time limit in force is read, and
waits together with the parse. -/
def ask (s : Session) (input : Bytes) : Except Fault Session :=
  if input.length % 2 ≠ 0 then
    .error (.oddByteCount input.length)
  else
    .ok { s with waiting := s.limit :: s.waiting }

/-- A parse that waits no more, for the engine or at all. -/
def withdraw (s : Session) (limit : Option Nat) : Session :=
  { s with waiting := s.waiting.erase limit }

/-- Give the engine to a parse that has asked for it, with the time limit that it
has read. -/
def engage (s : Session) (limit : Option Nat) : Outcome Fault Session :=
  s.freeEngine.map fun engine =>
    { s.withdraw limit with
      engine := some { engine with parses := engine.parses + 1, limit }
      running := true }

/-- Hand an input over to the engine, with the time limit that is in force. -/
def handOver (s : Session) (input : Bytes) : Outcome Fault Session :=
  (Outcome.ofExcept (s.ask input)).bind fun asked => asked.engage s.limit

/-- Take the engine back after a parse. -/
def takeBack (s : Session) : Session :=
  { s with running := false }

/-- What a parse that runs a whole round meets when it comes. -/
inductive Entry
  /-- No round was active, and the next one has begun. -/
  | entered (session : Session)
  /-- The active round is cancelled; the parse waits for its end. -/
  | waits
  | refused (fault : Fault)

/-- Enter a round of one's own. -/
def enter (s : Session) : Entry :=
  if s.destroyed then
    .refused .sessionDestroyed
  else
    match s.round with
    | none => .entered s.install
    | some number =>
      if s.token number = .cancelled then .waits else .refused .parseInProgress

end Session
end HostParsing
