import HostParsing.Command.Arguments
import HostParsing.Session.Parse
import HostParsing.Settings.File
/-!
# The command

The whole command: load the settings, read the arguments, read the file, parse
its text in one round, and clean up. The first step that fails ends it. A
canceller may cancel the active round at some point of the run, if the arguments
ask for one; the run is given the point at which it comes (`Firing`).

`runWith` is the command around any engine, told when the canceller comes, with settings in
any format, and `run` the one around an engine that is done at once, with settings in the
format of this library. They answer how the command ended; `Ending.exitCode`,
`Ending.outputWith` and `Ending.errors` are what the caller sees of that. How a tree is
printed is the grammar's affair, so `outputWith` is told; `output` goes with a grammar that
prints no more of a tree than its root.
-/

namespace HostParsing.Command

/-- When the canceller comes, relative to the parse. -/
inductive Firing
  | never
  | before
  | during
  | after
deriving DecidableEq, Repr

/-- How a run of the command ends. -/
inductive Ending
  | badSettings (fault : Settings.LoadFault)
  | badArguments (fault : ArgumentFault)
  | badInput (file : String) (problem : Problem)
  /-- The registry or the session refused. -/
  | failed (fault : Fault)
  /-- The parse waits for a round that never ends. -/
  | stuck
  /-- The parse returned, with a tree or cancelled. -/
  | parsed (tree : Option Tree)
deriving DecidableEq, Repr

/-- How the command is called. -/
def usage : String :=
  "ts-bridge-cli <file> [--timeout-micros N] [--cancel-after-ms N]"

namespace Ending

/-- The exit code of the command. -/
def exitCode : Ending → UInt32
  | parsed _ => 0
  | _ => 1

/-- What the command prints, where a tree is printed in this way. -/
def outputWith (print : Tree → String) : Ending → String
  | parsed (some tree) => print tree ++ "\n"
  | parsed none => "parse cancelled\n"
  | _ => ""

/-- What the command prints, where a tree is printed as its root. -/
def output : Ending → String :=
  outputWith fun _ => "(document)"

/-- What the command prints of a failure. -/
def errors : Ending → String
  | badSettings fault => "Error: Failed to load config file: " ++ fault.message ++ "\n"
  | badArguments fault => "Error: " ++ fault.message ++ "\nUsage: " ++ usage ++ "\n"
  | badInput file problem =>
    "Error: Failed to read " ++ file ++ "\n\nCaused by:\n    " ++ problem.message ++ "\n"
  | failed fault => "Error: " ++ fault.message ++ "\n"
  | stuck | parsed _ => ""

end Ending

/-- The canceller comes: it cancels the active round, if there is one. -/
def cancelRound (b : Bench) : Bench :=
  { b with session := b.session.requestCancellation.2 }

/-- The canceller comes now, if this is its point. -/
def fire (firing now : Firing) (b : Bench) : Bench :=
  if firing = now then cancelRound b else b

/-- The engine of a run, to which the canceller may come while it parses. -/
def engine (firing : Firing) : Bench.Behaviour Unit :=
  fun number limit b => Bench.atOnce number limit (fire firing .during b)

/-- The time limit in force: the flag's if there is one, else the setting. -/
def limitMicros (arguments : Arguments) (settings : Settings) : Option UInt64 :=
  arguments.timeoutMicros.or settings.timeout

/-- A bench that holds a text and has a time limit, and the text's handle. -/
def prepare (text : String) (micros : Option UInt64) : Except Fault (Handle × Bench) := do
  let b := Bench.start none
  let (h, registry) ← b.desk.registry.create text
  let session ← b.session.setLimit (micros.map fun n => n.toNat * 1000)
  .ok (h, { b with session, desk := { b.desk with registry } })

/-- The bench without the text and the engine. -/
def cleanUp (h : Handle) (b : Bench) : Outcome Fault Bench :=
  match b.desk.registry.erase h with
  | .error fault => .refused fault
  | .ok registry =>
    let (session, outcome) := b.session.destroy
    outcome.map fun _ => { b with session, desk := { b.desk with registry } }

/-- Parse the text behind a word in one round, while the canceller comes at its point:
the bench after that, and what came of the parse. -/
def parseHeld (act : Bench.Behaviour Unit) (firing : Firing) (raw : UInt64) (b : Bench) :
    Bench × Outcome Fault (Option Tree × Unit) :=
  let ran := (fire firing .before b).parseRound (.handle raw) none act (fun b => (b, ()))
  (fire firing .after ran.1, ran.2.1)

/-- Clean up after a parse: what came of it, and the bench that is left. -/
def finish (h : Handle) (ran : Bench × Outcome Fault (Option Tree × Unit)) :
    Outcome Fault (Option Tree × Bench) :=
  ran.2.bind fun answer => (cleanUp h ran.1).map fun left => (answer.1, left)

/-- Parse a text in one round and clean up. -/
def parseText (act : Bench.Behaviour Unit) (firing : Firing) (text : String)
    (micros : Option UInt64) : Outcome Fault (Option Tree × Bench) :=
  (Outcome.ofExcept (prepare text micros)).bind fun held =>
    finish held.1 (parseHeld act firing held.1.toRaw held.2)

/-- When the canceller comes to a run with these arguments. -/
def firingFor (arguments : Arguments) (firing : Firing) : Firing :=
  if arguments.cancelAfterMs.isSome then firing else .never

/-- Run the command around an engine, with settings in a format. -/
def runWith (format : Toml.Format) (engine : Firing → Bench.Behaviour Unit) (files : Files)
    (home : String) (arguments : List String) (firing : Firing) : Ending :=
  match Settings.loadIn format files (Settings.path home) with
  | .error fault => .badSettings fault
  | .ok settings =>
    let settings := settings.getD .none
    match Arguments.parse arguments with
    | .error fault => .badArguments fault
    | .ok arguments =>
      match files.readText arguments.file with
      | .error problem => .badInput arguments.file problem
      | .ok text =>
        let firing := firingFor arguments firing
        match parseText (engine firing) firing text (limitMicros arguments settings) with
        | .refused fault => .failed fault
        | .stuck => .stuck
        | .done (tree, _) => .parsed tree

/-- Run the command. -/
def run (files : Files) (home : String) (arguments : List String) (firing : Firing) :
    Ending :=
  runWith Toml.format engine files home arguments firing

end HostParsing.Command
