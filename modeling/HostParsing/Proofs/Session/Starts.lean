import HostParsing.Proofs.Session.Parse
/-!
# The rounds that parses start

A log has an entry for every operation on a session, and the entry names the round
that the operation started, if it started one. An operation stands after those that
it waited for and before those that are made while its parse runs.

`parseLog` is the log of a parse, given the logs of its engine and of its company.
`Starts` says that calls with a log lead from one bench to another; the rounds in
the log are those that began on the way. If the engine and the company reach the
session through its calls alone, so does a parse (`parse_starts`, and for the engine's
part without regard to the log `runEngine_leads`).
-/

namespace HostParsing.Bench

open Session (History Happens begins)

/-- For every operation, the round that it started. -/
abbrev Log := List (Option Nat)

/-- What the engine logs, if it gets the input. -/
def engineLog (b : Bench) (number : Nat) (input : Bytes)
    (engine : Nat → Option Nat → Bench → Log) : Log :=
  match b.session.handOver input with
  | .done session => engine number session.limit { b with session }
  | _ => []

/-- The log of a parse in a round from there on, where its buffer may be held. -/
def heldLog (b : Bench) (number : Nat) (input : Input)
    (engine : Nat → Option Nat → Bench → Log) : Log :=
  match b.reserve number input with
  | some a => a.bench.engineLog a.number a.input engine
  | none => []

/-- The log of a parse of a whole round that need not wait any more for its round. -/
def roundLog (b : Bench) (input : Input) (engine : Nat → Option Nat → Bench → Log) : Log :=
  match b.session.enter with
  | .entered session => some session.begun :: ({ b with session } : Bench).heldLog session.begun input engine
  | _ => [none]

/-- The log of a parse. -/
def parseLog {α : Type} (b : Bench) (mode : Mode) (source : Source)
    (engine : Nat → Option Nat → Bench → Log) (company : Company α) (waiting : Bench → Log) : Log :=
  match b.settle source with
  | .error _ => [none]
  | .ok input =>
    match mode with
    | .withinRound =>
      match b.session.activeRound with
      | .ok number => none :: b.heldLog number input engine
      | .error _ => [none]
    | .wholeRound =>
      match b.session.enter with
      | .waits => waiting b ++ (company b).1.roundLog input engine
      | _ => b.roundLog input engine

/-- What leads from one bench to another is the calls of a log. -/
def Starts (b : Bench) (log : Log) (after : Bench) : Prop :=
  ∃ events, History b.session events after.session ∧ begins events = log.filterMap id

variable {ρ α : Type} {b after : Bench} {mode : Mode} {source : Source} {company : Company α}
  {log : Log}

theorem Starts.refl (b : Bench) : b.Starts [] b := ⟨[], .nil, rfl⟩

/-- An operation that starts no round and changes nothing. -/
theorem Starts.idle (b : Bench) : b.Starts [none] b := ⟨[], .nil, rfl⟩

theorem Starts.trans {last : Bench} {more : Log} (first : b.Starts log after)
    (rest : after.Starts more last) : b.Starts (log ++ more) last := by
  obtain ⟨events, history, rounds⟩ := first
  obtain ⟨events', history', rounds'⟩ := rest
  refine ⟨events ++ events', history.trans history', ?_⟩
  rw [Session.begins_append, rounds, rounds', List.filterMap_append]

theorem Starts.began {number : Nat} {s : Session} (step : Happens b.session (.began number) s) :
    b.Starts [some number] { b with session := s } := ⟨[_], .single step, rfl⟩

/-- What starts no round need not be logged. -/
theorem Starts.quiet {event : Session.Event} {s : Session} (led : b.Starts log after)
    (step : Happens after.session event s) (quiet : event.began? = none) :
    b.Starts log { after with session := s } := by
  obtain ⟨events, history, rounds⟩ := led
  refine ⟨events ++ [event], history.next step, ?_⟩
  rw [Session.begins_append, rounds, begins, List.filterMap_cons_none quiet]
  exact List.append_nil _

theorem Starts.quiets {events : List Session.Event} {s : Session}
    (history : History b.session events s) (quiet : ∀ event ∈ events, event.began? = none) :
    b.Starts [none] { b with session := s } :=
  ⟨events, history, List.filterMap_eq_nil_iff.mpr quiet⟩

theorem Starts.of_session {after' : Bench} (led : b.Starts log after)
    (same : after'.session = after.session) : b.Starts log after' := by
  obtain ⟨events, history, rounds⟩ := led
  exact ⟨events, same ▸ history, rounds⟩

/-- What an engine comes to starts no round. -/
theorem Starts.conclude {ran : Bench × Verdict × ρ} (led : b.Starts log ran.1) (tree : Tree) :
    b.Starts log (conclude tree ran).1 := by
  obtain ⟨after, verdict, report⟩ := ran
  cases verdict with
  | never => exact led
  | noTree | tree => exact (led.quiet .tookBack rfl).of_session rfl

theorem Starts.leads (led : b.Starts log after) : b.Leads after := by
  obtain ⟨events, history, -⟩ := led
  exact ⟨events, history⟩

theorem Leads.exists_starts (led : b.Leads after) : ∃ log, b.Starts log after := by
  obtain ⟨events, history⟩ := led
  refine ⟨(begins events).map some, events, history, ?_⟩
  rw [List.filterMap_map, Function.id_comp, List.filterMap_some]

/-! ## The stages of a parse -/

theorem enter_starts {session : Session} (entered : b.session.enter = .entered session) :
    b.Starts [some session.begun] { b with session } := by
  obtain ⟨alive, idle, rfl⟩ := enter_eq_entered_iff.mp entered
  exact .began (.began alive idle)

theorem Starts.leaveRound (led : b.Starts log after) :
    b.Starts log { after with session := after.session.leaveRound } := by
  unfold Session.leaveRound Session.endRound
  cases active : after.session.round with
  | none => exact led
  | some number => exact led.quiet (.ended active) rfl

section

variable {engine : Nat → Option Nat → Bench → Log} {waiting : Bench → Log} {act : Behaviour ρ}
  (lawful : ∀ number limit (b : Bench), b.Starts (engine number limit b) (act number limit b).1)

include lawful

theorem runEngine_starts (b : Bench) (number : Nat) (input : Bytes) (old : Option Nat) :
    b.Starts (b.engineLog number input engine) (b.runEngine number input old act).1 := by
  unfold engineLog
  rcases handOver_cases b.session input with ⟨fault, refused⟩ | stuck | ⟨handed, given⟩
  · rw [refused, runEngine_of_refused refused]
    exact .refl b
  · obtain ⟨asked, asks, waits⟩ := runEngine_of_stuck stuck number old act
    rw [stuck, waits]
    exact (Starts.refl b).quiet (Session.happens_of_ask asks) rfl
  · have got : b.Starts [] { b with session := handed } :=
      ⟨_, Session.history_of_handOver given, rfl⟩
    rw [given, runEngine_of_handOver given]
    exact (got.trans (lawful number handed.limit { b with session := handed })).conclude _

theorem held_starts (b : Bench) (number : Nat) (input : Input) (old : Option Nat) :
    b.Starts (b.heldLog number input engine)
      (b.holding input fun b => b.runEngine number (b.readInput input) old act).1 := by
  unfold heldLog reserve
  cases locked : b.isLocked input with
  | true =>
    rw [holding_of_locked locked]
    exact .refl b
  | false =>
    refine (runEngine_starts lawful (b.lock input) number (b.readInput input) old).of_session ?_
    have keeps := holding_keeps (·.session) (fun _ => rfl) locked
      fun b => b.runEngine number (b.readInput input) old act
    rwa [readInput_lock] at keeps

theorem runRound_starts (b : Bench) (input : Input) (old : Option Nat) :
    b.Starts (b.heldLog b.session.begun input engine) (b.runRound input old act).1 := by
  have led := held_starts lawful b b.session.begun input old
  rw [runRound]
  generalize b.holding input _ = ran at led ⊢
  obtain ⟨met, outcome⟩ := ran
  cases outcome with
  | stuck => exact led
  | done answer => exact led.leaveRound
  | refused fault => exact led.leaveRound

/-- A parse that has waited, or need not, enters a round and has the engine run in it. -/
theorem enteredRound_starts {session : Session} (entered : b.session.enter = .entered session)
    (input : Input) (old : Option Nat) :
    b.Starts (b.roundLog input engine) (runRound { b with session } input old act).1 := by
  simp only [roundLog, entered]
  exact (enter_starts entered).trans (runRound_starts lawful _ input old)

/-- A parse logs the round that it starts, and whatever its engine and its company
log. -/
theorem parse_starts (friendly : ∀ b : Bench, b.Starts (waiting b) (company b).1) (b : Bench)
    (mode : Mode) (source : Source) (old : Option Nat) :
    b.Starts (b.parseLog mode source engine company waiting)
      (b.parse mode source old act company).1 := by
  unfold parse parseLog
  cases mode with
  | withinRound =>
    simp only [parseWithin]
    cases b.settle source with
    | error fault => exact .idle b
    | ok input =>
      cases active : b.session.activeRound with
      | error fault =>
        simp only [holding_runActive_of_error active]
        exact .idle b
      | ok number =>
        simp only [holding_runActive active]
        exact (Starts.idle b).trans (held_starts lawful b number input old)
  | wholeRound =>
    simp only [parseRound]
    cases b.settle source with
    | error fault => exact .idle b
    | ok input =>
      cases met : b.session.enter with
      | refused fault =>
        simp only [roundLog, met]
        exact .idle b
      | entered session => exact enteredRound_starts lawful met input old
      | waits =>
        have waited := friendly b
        simp only
        cases met' : (company b).1.session.enter with
        | refused fault | waits =>
          simp only [roundLog, met']
          exact waited.trans (.idle _)
        | entered session => exact waited.trans (enteredRound_starts lawful met' input old)

end

/-! ## Without regard to the log -/

theorem exists_log {step : Bench → Bench} (led : ∀ b : Bench, b.Leads (step b)) :
    ∃ log : Bench → Log, ∀ b : Bench, b.Starts (log b) (step b) :=
  Classical.axiomOfChoice fun b => (led b).exists_starts

theorem exists_engineLog {act : Behaviour ρ}
    (lawful : ∀ number limit (b : Bench), b.Leads (act number limit b).1) :
    ∃ engine : Nat → Option Nat → Bench → Log,
      ∀ number limit (b : Bench), b.Starts (engine number limit b) (act number limit b).1 := by
  have logs := fun number limit => exists_log (lawful number limit)
  exact ⟨fun number limit => (logs number limit).choose,
    fun number limit => (logs number limit).choose_spec⟩

theorem runEngine_leads {act : Behaviour ρ}
    (lawful : ∀ number limit (b : Bench), b.Leads (act number limit b).1) (b : Bench) (number : Nat)
    (input : Bytes) (old : Option Nat) : b.Leads (b.runEngine number input old act).1 := by
  obtain ⟨engine, lawful⟩ := exists_engineLog lawful
  exact (runEngine_starts lawful b number input old).leads

end HostParsing.Bench
