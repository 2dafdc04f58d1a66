import HostParsing.Command.Run
import HostParsing.Proofs.Host.Parse
import HostParsing.Proofs.Registry.Table
import HostParsing.Proofs.Session.Destroyed
/-!
# How the command ends

The command takes what it needs in a fixed order, and the first thing that is not there
ends it: the settings, the arguments, the text. Nothing else can. Once there is a text the
parse has a time limit, it comes to a tree or not, and it leaves no round behind, so the
text can be released and the session destroyed, whenever the canceller comes
(`run_ends`).

The engine is any that leaves the bench alone while it parses (`Calm`). How it comes to a
tree is its own affair, and so is how the grammar prints one, as long as no tree is printed
as a cancelled parse is (`Telling`).
-/

namespace HostParsing

/-- Why the text at a path cannot be read. -/
def Files.Unreadable (files : Files) (path : String) (problem : Problem) : Prop :=
  (files path).content = .error problem ∨
    (∃ content, (files path).content = .ok content ∧ String.fromUTF8? content = none) ∧
      problem = .notText

theorem Files.readText_eq_error_iff {files : Files} {path : String} {problem : Problem} :
    files.readText path = .error problem ↔ files.Unreadable path problem := by
  unfold readText Unreadable
  cases (files path).content with
  | error other => simp [bind, Except.bind]
  | ok content =>
    cases read : String.fromUTF8? content with
    | none => simp [bind, Except.bind, read, eq_comm]
    | some text => simp [bind, Except.bind, read]

/-- Settings are not loaded if there is something at the path, but no text or no settings
in the text. -/
theorem Settings.loadIn_eq_error_iff {format : Toml.Format} {files : Files} {path : String}
    {fault : LoadFault} :
    loadIn format files path = .error fault ↔ files.holds path = true ∧
      ((∃ problem, files.Unreadable path problem ∧ fault = .unreadable path problem) ∨
        ∃ text, files.readText path = .ok text ∧ read? format text = .none ∧
          fault = .malformed path) := by
  unfold loadIn
  cases files.holds path with
  | false => simp
  | true =>
    simp only [← Files.readText_eq_error_iff]
    cases files.readText path with
    | error problem => simp [eq_comm]
    | ok text =>
      cases read : read? format text with
      | none => simp [read, eq_comm]
      | some settings => simp [read]

end HostParsing

namespace HostParsing.Command

open Bench (Resting)

/-- An engine that leaves the bench alone: while it parses, nothing happens there but that
the canceller may come, and as it waits for nobody there, it comes to an end. -/
structure Calm (act : Bench.Behaviour Unit) : Prop where
  leaves : ∀ number limit b, (act number limit b).1 = b ∨ (act number limit b).1 = cancelRound b
  ends : ∀ number limit b, (act number limit b).2.1 ≠ .never

/-- A way to print trees that tells each of them from a parse that was cancelled. -/
def Telling (print : Tree → String) : Prop :=
  ∀ tree, print tree ≠ "parse cancelled"

/-- The time limit in force, in nanoseconds: what the flag says, or else the settings,
where 0 is no limit. -/
def limitInForce (arguments : Arguments) (settings : Option Settings) : Option Nat :=
  ((arguments.timeoutMicros.or (settings.bind Settings.timeoutMicros)).filter (· ≠ 0)).map
    fun micros => micros.toNat * 1000

variable {act : Bench.Behaviour Unit} {b : Bench} {h : Handle} {id : BufferId}

/-! ## The canceller -/

theorem cancelRound_of_idle (idle : b.session.round = none) : cancelRound b = b := by
  rw [cancelRound, Session.requestCancellation, idle]

/-- The canceller changes tokens alone. -/
theorem cancelRound_eq (b : Bench) :
    ∃ tokens, cancelRound b = { b with session := { b.session with tokens } } := by
  cases active : b.session.round with
  | none => exact ⟨b.session.tokens, cancelRound_of_idle active⟩
  | some number =>
    refine ⟨b.session.tokens.setIfInBounds number (b.session.token number).cancel, ?_⟩
    rw [cancelRound, Session.requestCancellation, active]
    rfl

/-- Where no round is active, the canceller comes for nothing. -/
theorem fire_of_idle (idle : b.session.round = none) (firing now : Firing) :
    fire firing now b = b := by
  rw [fire, cancelRound_of_idle idle, ite_self]

theorem calm_engine (firing : Firing) : Calm (engine firing) := by
  constructor
  · intro number limit b
    show fire firing .during b = b ∨ fire firing .during b = cancelRound b
    unfold fire
    split
    · exact .inr rfl
    · exact .inl rfl
  · intro number limit b
    show (fire firing .during b).verdict number ≠ .never
    unfold Bench.verdict
    split <;> nofun

theorem Calm.keeps (calm : Calm act) (number : Nat) (limit : Option Nat) (b : Bench) :
    ∃ tokens, (act number limit b).1 = { b with session := { b.session with tokens } } := by
  rcases calm.leaves number limit b with left | cancelled
  · exact ⟨b.session.tokens, left⟩
  · rw [cancelled]
    exact cancelRound_eq b

/-! ## From the text to the end -/

theorem resolveRaw_of_lookup? {r : Registry} (held : r.lookup? h = some id)
    (issued : h.generation ≠ 0) : r.resolveRaw h.toRaw = .ok id := by
  rw [Registry.resolveRaw, Registry.handleOfRaw, Handle.ofRaw?_toRaw issued]
  exact Registry.resolve_eq_ok_iff.mpr held

/-- A fresh bench has room for the text and takes the time limit. -/
theorem prepare_spec (text : String) (micros : Option UInt64) : ∃ h b id,
    prepare text micros = .ok (h, b) ∧
      b.session = { Session.start none with
        limit := (micros.map fun n => n.toNat * 1000).filter (· ≠ 0) } ∧
      b.locked = [] ∧ h.generation ≠ 0 ∧ b.desk.registry.lookup? h = some id ∧
      b.content id = Bytes.ofText text := by
  rcases Registry.register_spec Registry.sound_empty (Buffer.ofText text) with
    ⟨-, h, r, registered, done⟩ | ⟨full, -⟩
  · have created : Registry.empty.create text = .ok (h, r) := registered
    have self := done.slots h.index.toNat
    rw [if_pos rfl] at self
    let ready : Bench :=
      { Bench.start none with
        session := { Session.start none with
          limit := (micros.map fun n => n.toNat * 1000).filter (· ≠ 0) }
        desk := { Desk.empty with registry := r } }
    refine ⟨h, ready, Registry.empty.store.size, ?_, rfl, rfl,
      (done.sound Registry.sound_empty).generation_ne_zero self,
      (done.lookup? h).trans (if_pos rfl), ?_⟩
    · simp only [prepare, Bench.start, Desk.empty, created]
      rfl
    · show (r.store.get _).bytes = _
      rw [done.store, Store.get_push_self]
      rfl
  · exact absurd full (by decide)

/-- A calm engine comes to a tree or not, and changes tokens alone. -/
theorem runEngine_of_calm (calm : Calm act) {input : Bytes} {handed : Session}
    (given : b.session.handOver input = .done handed) (number : Nat) (old : Option Nat) :
    let verdict := (act number handed.limit { b with session := handed }).2.1
    ∃ after tokens, b.runEngine number input old act = (after, .done
        (if verdict = .tree then some (Tree.parse (old.bind (b.trees[·]?)) input) else none, ())) ∧
      after.desk = b.desk ∧ after.session = { handed.takeBack with tokens } := by
  intro verdict
  obtain ⟨tokens, kept⟩ := calm.keeps number handed.limit { b with session := handed }
  have comes : verdict ≠ .never := calm.ends number handed.limit { b with session := handed }
  refine ⟨_, tokens, Prod.ext rfl ?_, ?_, ?_⟩
  · rw [Bench.runEngine_of_handOver given, Bench.outcome_conclude, if_neg comes]
  · rw [Bench.runEngine_of_handOver given, Bench.desk_conclude, kept]
  · rw [Bench.runEngine_of_handOver given, Bench.session_conclude, if_neg comes, kept]
    rfl

/-- A parse of a held text comes to what the engine comes to, and leaves no round behind,
whenever the canceller comes. The engine is asked once, with the limit in force. -/
theorem parseHeld_spec (calm : Calm act) (rests : b.Resting)
    (alive : b.session.destroyed = false) (idle : b.session.round = none)
    {raw : UInt64} (resolved : b.desk.registry.resolveRaw raw = .ok id) (firing : Firing) :
    ∃ engine met closing,
      b.session.engine = some engine ∧
      met.session.round = some (b.session.begun + 1) ∧
      met.session.token (b.session.begun + 1) = .active ∧
      parseHeld act firing raw b = (closing,
        .done (if (act (b.session.begun + 1) b.session.limit met).2.1 = .tree then
          some (b.treeOf id none) else none, ())) ∧
      closing.desk = b.desk ∧ closing.session.phase = .idle ∧
      closing.session.running = false ∧
      closing.session.engine =
        some { engine with parses := engine.parses + 1, limit := b.session.limit } := by
  obtain ⟨engine, present, given⟩ := Session.exists_handOver_of_free
    (rests.sound.install alive idle) alive rests.free (b.even_content id)
  have settled : b.settle (.handle raw) = .ok (.buffer id) :=
    Bench.settle_of_resolved resolved
  have entered : b.session.enter = .entered b.session.install :=
    Bench.enter_eq_entered_iff.mpr ⟨alive, idle, rfl⟩
  let asked : Engine := { engine with parses := engine.parses + 1, limit := b.session.limit }
  let handed : Session := { b.session.install with engine := some asked, running := true }
  let entry : Bench := { b with session := b.session.install }
  have active : handed.token (b.session.begun + 1) = .active := by
    show b.session.install.token (b.session.begun + 1) = .active
    rw [Session.token_install, if_pos rests.sound.size_tokens.symm]
  let met : Bench := { entry.lock (.buffer id) with session := handed }
  obtain ⟨after, tokens, ran, desk, session⟩ :=
    runEngine_of_calm (b := entry.lock (.buffer id)) calm given (b.session.begun + 1) none
  have held : (entry.holding (.buffer id) fun held =>
      held.runEngine (b.session.begun + 1) (held.readInput (.buffer id)) none act) =
      (after.unlock (.buffer id), .done (if (act (b.session.begun + 1) b.session.limit met).2.1 = .tree
        then some (b.treeOf id none) else none, ())) := by
    have unlocked : entry.isLocked (.buffer id) = false := rests.unlocked (.buffer id)
    refine Bench.holding_of_done unlocked ?_
    rw [Bench.readInput_lock]
    exact ran
  have round : entry.runRound (.buffer id) none act = _ := Bench.runRound_of_done held
  have left : after.session.leaveRound =
      { ({ handed.takeBack with tokens } : Session).setToken (b.session.begun + 1) .expired with
        round := none } := by
    rw [session]
    rfl
  refine ⟨engine, met, { after.unlock (.buffer id) with session := after.session.leaveRound },
    present, rfl, active, ?_, desk, ?_⟩
  · have ended : after.session.leaveRound.round = none := congrArg Session.round left
    simp only [parseHeld, fire_of_idle idle, Bench.parseRound, settled, entered]
    rw [show ({ b with session := b.session.install } : Bench) = entry from rfl, round,
      fire_of_idle ended]
    rfl
  · show after.session.leaveRound.phase = .idle ∧
      after.session.leaveRound.running = false ∧ after.session.leaveRound.engine = some asked
    rw [left]
    exact ⟨Session.phase_eq_idle_iff.mpr ⟨alive, rfl⟩, rfl, rfl⟩

/-- After a parse that has left no round behind, the text is released and the session
destroyed. -/
theorem cleanUp_spec (held : b.desk.registry.lookup? h = some id)
    (idle : b.session.phase = .idle) (free : b.session.running = false) :
    ∃ left, cleanUp h b = .done left ∧ left.session.phase = .destroyed := by
  have resolved : b.desk.registry.resolve h = .ok id := Registry.resolve_eq_ok_iff.mpr held
  obtain ⟨busy, -⟩ | ⟨-, -, destroys⟩ | ⟨-, runs, -⟩ := b.session.destroy_cases
  · exact absurd idle busy
  · rw [cleanUp, Registry.erase, resolved]
    simp only [destroys]
    exact ⟨_, rfl, Session.phase_eq_destroyed_iff.mpr rfl⟩
  · exact absurd (runs.symm.trans free) nofun

/-- A run on a text that comes to its end: from the bench that holds the text, through one
parse under a time limit, to the bench that is left. -/
structure Completes (act : Bench.Behaviour Unit) (firing : Firing) (text : String)
    (micros : Option UInt64) (limit : Option Nat) (h : Handle) (ready closing left : Bench)
    (tree : Option Tree) : Prop where
  prepared : prepare text micros = .ok (h, ready)
  limited : ready.session.limit = limit
  /-- There is a tree if the engine comes to one, in a round that nobody has cancelled
  before it is asked. -/
  answered : ∃ met : Bench, met.session.round = some 1 ∧ met.session.token 1 = .active ∧
    tree = if (act 1 limit met).2.1 = .tree then some (Tree.parse none (Bytes.ofText text)) else none
  parsed : parseHeld act firing h.toRaw ready = (closing, .done (tree, ()))
  /-- The engine was asked once, under the limit. -/
  asked : closing.session.engine = some ⟨1, 0, limit⟩
  idle : closing.session.phase = .idle
  live : closing.desk.registry.contains h = true
  cleaned : cleanUp h closing = .done left
  destroyed : left.session.phase = .destroyed

theorem parseText_of_parsed {firing : Firing} {text : String} {micros : Option UInt64}
    {ready closing left : Bench} {tree : Option Tree}
    (prepared : prepare text micros = .ok (h, ready))
    (parsed : parseHeld act firing h.toRaw ready = (closing, .done (tree, ())))
    (cleaned : cleanUp h closing = .done left) :
    parseText act firing text micros = .done (tree, left) := by
  rw [parseText, prepared, Outcome.ofExcept_ok, Outcome.bind_done, parsed, finish, Outcome.bind_done,
    cleaned, Outcome.map_done]

/-- Once there is a text, nothing can fail. -/
theorem exists_completes (calm : Calm act) (firing : Firing) (text : String)
    (micros : Option UInt64) : ∃ h ready closing left tree,
      Completes act firing text micros ((micros.map fun n => n.toNat * 1000).filter (· ≠ 0))
        h ready closing left tree ∧
      parseText act firing text micros = .done (tree, left) := by
  obtain ⟨h, ready, id, prepared, session, locked, issued, held, content⟩ :=
    prepare_spec text micros
  have rests : ready.Resting := by
    refine ⟨?_, congrArg Session.running session, locked⟩
    rw [session]
    exact (Session.Happens.limited rfl _).sound (Session.sound_start none)
  obtain ⟨engine, met, closing, present, round, active, parsed, desk, idle, free, asked⟩ :=
    parseHeld_spec calm rests (congrArg Session.destroyed session)
      (congrArg Session.round session) (resolveRaw_of_lookup? held issued) firing
  have held' : closing.desk.registry.lookup? h = some id := by rw [desk, held]
  obtain ⟨left, cleaned, destroyed⟩ := cleanUp_spec held' idle free
  have limited := congrArg Session.limit session
  have first : ready.session.begun + 1 = 1 := congrArg (Session.begun · + 1) session
  have fresh : engine = ⟨0, 0, none⟩ := by
    rw [session] at present
    exact (Option.some.inj present).symm
  rw [first] at round active parsed
  rw [limited] at asked parsed
  refine ⟨h, ready, closing, left, _, ⟨prepared, limited, ⟨met, round, active, ?_⟩, parsed, ?_, idle, ?_,
    cleaned, destroyed⟩, ?_⟩
  · rw [Bench.treeOf, content]
    rfl
  · rw [asked, fresh]
  · rw [Registry.contains, held']
    rfl
  · exact parseText_of_parsed prepared parsed cleaned

/-! ## The whole run -/

/-- A limit of 0 is filtered out before the command chooses between the limits, or after. -/
theorem filter_limitMicros (arguments : Arguments) (settings : Option Settings) :
    (limitMicros arguments (settings.getD .none)).filter (· ≠ 0) =
      (arguments.timeoutMicros.or (settings.bind Settings.timeoutMicros)).filter (· ≠ 0) := by
  have configured : (settings.getD .none).timeoutMicros =
      settings.bind Settings.timeoutMicros := by cases settings <;> rfl
  rw [limitMicros, Settings.timeout, configured]
  cases arguments.timeoutMicros with
  | some _ => rfl
  | none => simp only [Option.none_or, Option.filter_filter, Bool.and_self]

/-- In nanoseconds a limit is 0 exactly if it is in microseconds. -/
theorem filter_map_nanos (micros : Option UInt64) :
    (micros.map fun n => n.toNat * 1000).filter (· ≠ 0) =
      (micros.filter (· ≠ 0)).map fun n => n.toNat * 1000 := by
  cases micros with
  | none => rfl
  | some n =>
    have zero : n.toNat * 1000 = 0 ↔ n = 0 := by
      rw [← UInt64.toNat_inj, UInt64.toNat_zero]
      omega
    simp only [Option.map_some, Option.filter_some, ne_eq, zero]
    split <;> rfl

theorem limit_eq_limitInForce (arguments : Arguments) (settings : Option Settings) :
    ((limitMicros arguments (settings.getD .none)).map fun n => n.toNat * 1000).filter (· ≠ 0) =
      limitInForce arguments settings := by
  rw [filter_map_nanos, filter_limitMicros, limitInForce]

variable {format : Toml.Format} {acts : Firing → Bench.Behaviour Unit} {files : Files}
  {home : String} {arguments : List String} {settings : Option Settings} {parsed : Arguments}
  {firing : Firing}

theorem runWith_of_badSettings {fault : Settings.LoadFault}
    (failed : Settings.loadIn format files (Settings.path home) = .error fault) :
    runWith format acts files home arguments firing = .badSettings fault := by
  simp only [runWith, failed]

theorem runWith_of_badArguments {fault : ArgumentFault}
    (loaded : Settings.loadIn format files (Settings.path home) = .ok settings)
    (failed : Arguments.parse arguments = .error fault) :
    runWith format acts files home arguments firing = .badArguments fault := by
  simp only [runWith, loaded, failed]

theorem runWith_of_badInput {problem : Problem}
    (loaded : Settings.loadIn format files (Settings.path home) = .ok settings)
    (accepted : Arguments.parse arguments = .ok parsed)
    (failed : files.readText parsed.file = .error problem) :
    runWith format acts files home arguments firing = .badInput parsed.file problem := by
  simp only [runWith, loaded, accepted, failed]

/-- With settings, arguments and a text the run comes to its end. -/
theorem runWith_of_readText (calm : ∀ firing, Calm (acts firing)) (firing : Firing)
    {text : String} (loaded : Settings.loadIn format files (Settings.path home) = .ok settings)
    (accepted : Arguments.parse arguments = .ok parsed)
    (held : files.readText parsed.file = .ok text) :
    ∃ h ready closing left tree,
      Completes (acts (firingFor parsed firing)) (firingFor parsed firing) text
        (limitMicros parsed (settings.getD .none)) (limitInForce parsed settings)
        h ready closing left tree ∧
      runWith format acts files home arguments firing = .parsed tree := by
  obtain ⟨h, ready, closing, left, tree, completes, done⟩ :=
    exists_completes (calm (firingFor parsed firing)) (firingFor parsed firing) text
      (limitMicros parsed (settings.getD .none))
  rw [limit_eq_limitInForce] at completes
  refine ⟨h, ready, closing, left, tree, completes, ?_⟩
  simp only [runWith, loaded, accepted, held, done]

/-- The run succeeds exactly if there are settings, arguments and a text. -/
theorem exitCode_runWith_iff (calm : ∀ firing, Calm (acts firing)) :
    (runWith format acts files home arguments firing).exitCode = 0 ↔ ∃ settings parsed text,
      Settings.loadIn format files (Settings.path home) = .ok settings ∧
      Arguments.parse arguments = .ok parsed ∧ files.readText parsed.file = .ok text := by
  constructor
  · intro zero
    cases loaded : Settings.loadIn format files (Settings.path home) with
    | error fault =>
      rw [runWith_of_badSettings loaded] at zero
      cases zero
    | ok settings =>
      cases accepted : Arguments.parse arguments with
      | error fault =>
        rw [runWith_of_badArguments loaded accepted] at zero
        cases zero
      | ok parsed =>
        cases held : files.readText parsed.file with
        | error problem =>
          rw [runWith_of_badInput loaded accepted held] at zero
          cases zero
        | ok text => exact ⟨settings, parsed, text, rfl, rfl, held⟩
  · rintro ⟨settings, parsed, text, loaded, accepted, held⟩
    obtain ⟨h, ready, closing, left, tree, -, ended⟩ :=
      runWith_of_readText calm firing loaded accepted held
    rw [ended]
    rfl

theorem outputWith_eq_cancelled_iff {print : Tree → String} (telling : Telling print)
    {tree : Option Tree} :
    (Ending.parsed tree).outputWith print = "parse cancelled\n" ↔ tree = none := by
  cases tree with
  | none => simp only [Ending.outputWith]
  | some tree =>
    have told : print tree ++ "\n" ≠ "parse cancelled" ++ "\n" := fun same =>
      telling tree (String.append_left_inj "\n" |>.mp same)
    simp only [Ending.outputWith, reduceCtorEq, iff_false]
    exact told

/-- A canceller that comes while the engine parses cancels its round. -/
theorem isWanted_fire {number : Nat} (active : b.session.round = some number)
    (token : b.session.token number = .active) (firing : Firing) :
    (fire firing .during b).isWanted number = decide (firing ≠ .during) := by
  have inside : number < b.session.tokens.size := by
    by_contra beyond
    rw [Session.token_beyond (Nat.le_of_not_lt beyond)] at token
    cases token
  by_cases comes : firing = .during
  · have cancelled : (cancelRound b).session.token number = .cancelled := by
      rw [cancelRound, Session.requestCancellation, active, Session.token_cancel,
        if_pos ⟨rfl, inside⟩, token]
      rfl
    rw [fire, if_pos comes, Bench.isWanted, cancelled, comes]
    rfl
  · rw [fire, if_neg comes, Bench.isWanted, token, decide_eq_true comes]
    rfl

/-- The command itself is told to be cancelled exactly if its arguments ask for a canceller
and that comes while the engine parses. -/
theorem run_eq_cancelled_iff {text : String}
    (loaded : Settings.load files (Settings.path home) = .ok settings)
    (accepted : Arguments.parse arguments = .ok parsed)
    (held : files.readText parsed.file = .ok text) (firing : Firing) :
    run files home arguments firing = .parsed none ↔
      parsed.cancelAfterMs.isSome = true ∧ firing = .during := by
  obtain ⟨h, ready, closing, left, tree, completes, ended⟩ :=
    runWith_of_readText calm_engine firing loaded accepted held
  obtain ⟨met, active, token, told⟩ := completes.answered
  have during : firingFor parsed firing = .during ↔
      parsed.cancelAfterMs.isSome = true ∧ firing = .during := by
    rw [firingFor]
    split
    · next asked => simp [asked]
    · next silent => simp [silent]
  have wanted : (engine (firingFor parsed firing) 1 (limitInForce parsed settings) met).2.1 =
      if firingFor parsed firing ≠ .during then .tree else .noTree := by
    show (fire (firingFor parsed firing) .during met).verdict 1 = _
    rw [Bench.verdict, isWanted_fire active token]
    simp only [decide_eq_true_eq]
  rw [wanted] at told
  rw [run, ended, Ending.parsed.injEq, told, ← during]
  by_cases comes : firingFor parsed firing = .during <;> simp [comes]

/-- The run of the command around any engine that leaves the bench alone, in any format. It
fails at the first thing that is not there, settings that load, arguments that are accepted,
an input that is text, and else it succeeds: under the time limit in force the parse comes to
a tree or is told to be cancelled, and cleaning up finds the text in the registry and no round
in the session, whenever the canceller came. Settings load where the system finds no file for
them, and where it reads a text that means settings. -/
theorem run_ends (calm : ∀ firing, Calm (acts firing)) {print : Tree → String}
    (telling : Telling print) (format : Toml.Format) (files : Files) (home : String)
    (arguments : List String) (firing : Firing) :
    let path := Settings.path home
    let settings := Settings.loadIn format files path
    let parsed := Arguments.parse arguments
    let ending := runWith format acts files home arguments firing
    (files.holds path = false → settings = .ok none) ∧
    (∀ fault, settings = .error fault ↔ files.holds path = true ∧
      ((∃ problem, files.Unreadable path problem ∧ fault = .unreadable path problem) ∨
        ∃ text, files.readText path = .ok text ∧ Settings.read? format text = none ∧
          fault = .malformed path)) ∧
    (∀ fault, settings = .error fault → ending = .badSettings fault) ∧
    (∀ loaded fault, settings = .ok loaded → parsed = .error fault →
      ending = .badArguments fault) ∧
    (∀ loaded accepted problem, settings = .ok loaded → parsed = .ok accepted →
      files.Unreadable accepted.file problem → ending = .badInput accepted.file problem) ∧
    (ending.exitCode = 0 ↔ ∃ loaded accepted text, settings = .ok loaded ∧
      parsed = .ok accepted ∧ files.readText accepted.file = .ok text) ∧
    ∀ loaded accepted text, settings = .ok loaded → parsed = .ok accepted →
      files.readText accepted.file = .ok text →
      ∃ h ready closing left tree,
        Completes (acts (firingFor accepted firing)) (firingFor accepted firing) text
          (limitMicros accepted (loaded.getD .none)) (limitInForce accepted loaded)
          h ready closing left tree ∧
        ending = .parsed tree ∧ (ending.outputWith print = "parse cancelled\n" ↔ tree = none) := by
  intro path settings parsed ending
  refine ⟨fun absent => if_neg (Bool.eq_false_iff.mp absent),
    fun fault => Settings.loadIn_eq_error_iff,
    fun fault failed => runWith_of_badSettings failed,
    fun loaded fault fine failed => runWith_of_badArguments fine failed,
    fun loaded accepted problem fine accepts failed =>
      runWith_of_badInput fine accepts (Files.readText_eq_error_iff.mpr failed),
    exitCode_runWith_iff calm, fun loaded accepted text fine accepts held => ?_⟩
  obtain ⟨h, ready, closing, left, tree, completes, ended⟩ :=
    runWith_of_readText calm firing fine accepts held
  refine ⟨h, ready, closing, left, tree, completes, ended, ?_⟩
  show (runWith format acts files home arguments firing).outputWith print = _ ↔ _
  rw [ended]
  exact outputWith_eq_cancelled_iff telling

/-- The settings limit the time, the flag lifts the limit, and the canceller comes while the
engine parses. The grammar prints a tree in brackets. -/
theorem run_ends_cancelled :
    let files : Files := fun path =>
      if path = "/home/.config/ts-bridge/config.toml" then ⟨true, .ok "timeout_micros = 7".toUTF8⟩
      else if path = "a.md" then ⟨true, .ok "# a".toUTF8⟩
      else ⟨false, .error .notFound⟩
    let arguments := ["a.md", "--timeout-micros", "0", "--cancel-after-ms", "5"]
    let print : Tree → String := fun tree => "(document " ++ tree.text ++ ")"
    (∀ firing, Calm (engine firing)) ∧ Telling print ∧
    Settings.load files "/home/.config/ts-bridge/config.toml" = .ok (some ⟨some 7, none, none⟩) ∧
    Arguments.parse arguments = .ok ⟨"a.md", some 0, some 5⟩ ∧
    files.readText "a.md" = .ok "# a" ∧
    run files "/home" arguments .during = .parsed none ∧
    ∃ h ready closing left tree,
      Completes (engine .during) .during "# a" (some 0) none h ready closing left tree ∧
      run files "/home" arguments .during = .parsed tree ∧
      ((run files "/home" arguments .during).outputWith print = "parse cancelled\n" ↔
        tree = none) := by
  intro files arguments print
  have telling : Telling print := by
    intro tree same
    have first : (print tree).toList.head? = some '(' := by
      show ("(document " ++ tree.text ++ ")").toList.head? = _
      rw [String.toList_append, String.toList_append]
      rfl
    rw [same] at first
    exact absurd first (by decide)
  have loaded : Settings.load files "/home/.config/ts-bridge/config.toml" =
      .ok (some ⟨some 7, none, none⟩) := by decide +kernel
  have parsed : Arguments.parse arguments = .ok ⟨"a.md", some 0, some 5⟩ := by decide +kernel
  have held : files.readText "a.md" = .ok "# a" := by decide +kernel
  obtain ⟨h, ready, closing, left, tree, completes, ended, cancelled⟩ :=
    (run_ends calm_engine telling Toml.format files "/home" arguments .during).2.2.2.2.2.2 _ _ _
      loaded parsed held
  have lifted : limitInForce ⟨"a.md", some 0, some 5⟩ (some ⟨some 7, none, none⟩) = none := by
    decide
  rw [lifted] at completes
  exact ⟨calm_engine, telling, loaded, parsed, held, by decide +kernel, h, ready, closing, left,
    tree, completes, ended, cancelled⟩

end HostParsing.Command
