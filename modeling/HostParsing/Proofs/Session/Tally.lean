import HostParsing.Proofs.Session.Calls
/-!
# What the engine is asked for

`Call.tally` counts the parses and the resets that were answered to a call, those
of the calls made meanwhile included, by how the call ended; `asked` counts what a
history asks of the engine. Both agree on every call, unless a parse has kept the engine
because it does not return (`Call.run_asks`), and what is asked of the engine is what
becomes of it (`History.engine`).
-/

namespace HostParsing.Session

/-- How many parses and how many resets. -/
@[ext] structure Tally where
  parses : Nat
  resets : Nat
deriving DecidableEq, Repr

namespace Tally

instance : Zero Tally := ⟨⟨0, 0⟩⟩

instance : Add Tally := ⟨fun a b => ⟨a.parses + b.parses, a.resets + b.resets⟩⟩

@[simp] theorem parses_zero : (0 : Tally).parses = 0 := rfl

@[simp] theorem resets_zero : (0 : Tally).resets = 0 := rfl

@[simp] theorem parses_add (a b : Tally) : (a + b).parses = a.parses + b.parses := rfl

@[simp] theorem resets_add (a b : Tally) : (a + b).resets = a.resets + b.resets := rfl

protected theorem zero_add (a : Tally) : 0 + a = a := by ext <;> simp

protected theorem add_comm (a b : Tally) : a + b = b + a := by
  ext
  · exact Nat.add_comm ..
  · exact Nat.add_comm ..

protected theorem add_assoc (a b c : Tally) : a + b + c = a + (b + c) := by
  ext
  · exact Nat.add_assoc ..
  · exact Nat.add_assoc ..

end Tally

/-- What an event asks of the engine. -/
def Event.asks : Event → Tally
  | .handedOver _ => ⟨1, 0⟩
  | .reset => ⟨0, 1⟩
  | _ => 0

/-- Whether an event gives the engine to a parse or takes it back. -/
def Event.moves : Event → Bool
  | .handedOver _ | .tookBack => true
  | _ => false

/-- What is asked of the engine in all. -/
def asked : List Event → Tally
  | [] => 0
  | event :: events => event.asks + asked events

/-- How the calls ended that were made while a parse ran. -/
def Report.during : Report → List Turn
  | .mk _ _ _ during => during

mutual

/-- The parses and resets that were answered, by how a call ended: its own, and
those of the calls made while it waited or its parse ran. -/
def Call.tally (call : Call) (outcome : Outcome Fault Answer) : Tally :=
  match call, outcome with
  | .parse _ _ _ script, .done (.parsed _ (.mk _ _ _ during)) => ⟨1, 0⟩ + scriptTally script during
  | .reset, .done _ => ⟨0, 1⟩
  | .alongside waiter beside, .done (.alongside (.mk outcome _) turns) =>
    waiter.tally outcome + tallyAll beside turns
  | _, _ => 0

/-- The parses and resets that were answered to the calls of a script, as far as
it ran. -/
def scriptTally (script : List Step) (during : List Turn) : Tally :=
  match script, during with
  | .call call :: rest, .mk outcome _ :: during => call.tally outcome + scriptTally rest during
  | .poll :: rest, during | .spend _ :: rest, during | .giveUp :: rest, during =>
    scriptTally rest during
  | _, _ => 0

/-- The parses and resets that were answered to calls one after the other. -/
def tallyAll (calls : List Call) (turns : List Turn) : Tally :=
  match calls, turns with
  | call :: rest, .mk outcome _ :: turns => call.tally outcome + tallyAll rest turns
  | _, _ => 0

end

/-- What an engine becomes when so much is asked of it. Its time limit changes only
with a parse. -/
structure Asked (engine : Engine) (tally : Tally) (after : Engine) : Prop where
  parses : after.parses = engine.parses + tally.parses
  resets : after.resets = engine.resets + tally.resets
  limit : tally.parses = 0 → after.limit = engine.limit

variable {s t : Session} {event : Event} {events : List Event} {after : Engine}

/-! ## What a history makes of the engine -/

theorem asked_append (events more : List Event) :
    asked (events ++ more) = asked events + asked more := by
  induction events with
  | nil => rw [List.nil_append, asked, Tally.zero_add]
  | cons event events ih => rw [List.cons_append, asked, asked, ih, Tally.add_assoc]

theorem asked_singleton (event : Event) : asked [event] = event.asks := rfl

theorem Asked.trans {engine met : Engine} {tally more : Tally} (first : Asked engine tally met)
    (rest : Asked met more after) : Asked engine (tally + more) after where
  parses := by rw [rest.parses, first.parses, Tally.parses_add, Nat.add_assoc]
  resets := by rw [rest.resets, first.resets, Tally.resets_add, Nat.add_assoc]
  limit none := by
    rw [Tally.parses_add] at none
    rw [rest.limit (by omega), first.limit (by omega)]

/-- An event makes of the engine what it asks of it. -/
theorem Happens.engine (step : Happens s event t) (present : t.engine = some after) :
    ∃ engine, s.engine = some engine ∧ Asked engine event.asks after := by
  cases step with
  | handedOver _ held =>
    cases present
    exact ⟨_, held, rfl, rfl, nofun⟩
  | reset held =>
    cases present
    exact ⟨_, held, rfl, rfl, fun _ => rfl⟩
  | released => cases present
  | _ => exact ⟨after, present, rfl, rfl, fun _ => rfl⟩

/-- A history makes of the engine what it asks of it. -/
theorem History.engine (history : History s events t) (present : t.engine = some after) :
    ∃ engine, s.engine = some engine ∧ Asked engine (asked events) after := by
  induction history generalizing after with
  | nil => exact ⟨after, present, rfl, rfl, fun _ => rfl⟩
  | next before step ih =>
    obtain ⟨met, held, rest⟩ := step.engine present
    obtain ⟨engine, held', first⟩ := ih held
    rw [asked_append, asked_singleton]
    exact ⟨engine, held', first.trans rest⟩

/-- Nothing is asked of an engine that is given up. -/
theorem History.asked_of_gone (history : History s events t) (gone : s.engine = none) :
    asked events = 0 ∧ t.engine = none := by
  induction history with
  | nil => exact ⟨rfl, gone⟩
  | next before step ih =>
    obtain ⟨nothing, met⟩ := ih
    rw [asked_append, nothing, asked_singleton, Tally.zero_add]
    cases step with
    | handedOver _ present => rw [met] at present; cases present
    | reset present => rw [met] at present; cases present
    | released => exact ⟨rfl, rfl⟩
    | _ => exact ⟨rfl, met⟩

/-- Nothing but a parse takes the engine or gives it back. -/
theorem Happens.running_eq (step : Happens s event t) (stays : event.moves = false) :
    t.running = s.running := by
  cases step with
  | handedOver | tookBack => cases stays
  | _ => rfl

end HostParsing.Session

namespace HostParsing.Bench

open Session (History Happens Tally asked)

/-- What leads from one bench to another is calls on the session. Whoever has held the
engine at first holds it still, and unless somebody else does now, the calls ask the engine
for so much. -/
structure Asks (b : Bench) (tally : Tally) (after : Bench) : Prop where
  keeps : b.session.running = true → after.session.running = true
  counts : ∃ events, History b.session events after.session ∧
    (after.session.running = b.session.running → asked events = tally)

variable {ρ α : Type} {b after : Bench} {tally more : Tally}

theorem Asks.refl (b : Bench) : b.Asks 0 b := ⟨id, [], .nil, fun _ => rfl⟩

/-- If nobody has taken the engine for good in the end, nobody has in between. -/
theorem Asks.trans {last : Bench} (first : b.Asks tally after) (rest : after.Asks more last) :
    b.Asks (tally + more) last := by
  obtain ⟨keeps, events, history, counted⟩ := first
  obtain ⟨keeps', events', history', counted'⟩ := rest
  refine ⟨fun held => keeps' (keeps held), events ++ events', history.trans history',
    fun same => ?_⟩
  have between : after.session.running = b.session.running := by
    cases held : b.session.running with
    | true => exact keeps held
    | false =>
      refine Bool.eq_false_iff.mpr fun taken => ?_
      rw [keeps' taken, held] at same
      cases same
  rw [Session.asked_append, counted between, counted' (same.trans between.symm)]

theorem Asks.next {event : Session.Event} {s : Session} (led : b.Asks tally after)
    (step : Happens after.session event s) (stays : event.moves = false) :
    b.Asks (tally + event.asks) { after with session := s } := by
  have same := step.running_eq stays
  obtain ⟨keeps, events, history, counted⟩ := led
  refine ⟨fun held => same.trans (keeps held), events ++ [event], history.next step, fun e => ?_⟩
  rw [Session.asked_append, counted (same.symm.trans e)]
  rfl

theorem Asks.of_session {after' : Bench} (led : b.Asks tally after)
    (same : after'.session = after.session) : b.Asks tally after' := by
  obtain ⟨keeps, counts⟩ := led
  rw [← same] at keeps counts
  exact ⟨keeps, counts⟩

theorem Asks.engine {engine' : Engine} (led : b.Asks tally after)
    (stays : after.session.running = b.session.running)
    (present : after.session.engine = some engine') :
    ∃ engine, b.session.engine = some engine ∧ Session.Asked engine tally engine' := by
  obtain ⟨-, events, history, counted⟩ := led
  rw [← counted stays]
  exact history.engine present

/-- A call that asks nothing of the engine. -/
theorem Asks.quiet (b : Bench) {event : Session.Event} {s : Session}
    (step : Happens b.session event s) (asks : event.asks = 0) (stays : event.moves = false) :
    b.Asks 0 { b with session := s } := by
  have led := (Asks.refl b).next step stays
  rwa [asks, Tally.zero_add] at led

theorem Asks.leaveRound (led : b.Asks tally after) :
    b.Asks tally { after with session := after.session.leaveRound } := by
  unfold Session.leaveRound Session.endRound
  cases active : after.session.round with
  | none => exact led
  | some number => exact led.next (.ended active) rfl

/-- What is asked of the engine by a parse that ended so, given the count of what
is asked of it meanwhile. -/
def parseTally (count : ρ → Tally) : Outcome Fault (Option Tree × ρ) → Tally
  | .done (_, report) => ⟨1, 0⟩ + count report
  | _ => 0

section

variable (count : ρ → Tally) {waited : α → Tally} {act : Behaviour ρ} {company : Company α}
  (lawful : ∀ number limit (b : Bench), b.Asks (count (act number limit b).2.2) (act number limit b).1)

include lawful

theorem runEngine_asks (b : Bench) (number : Nat) (input : Bytes) (old : Option Nat) :
    let ran := b.runEngine number input old act
    b.Asks (parseTally count ran.2) ran.1 := by
  intro ran
  rcases handOver_cases b.session input with ⟨fault, refused⟩ | stuck | ⟨handed, given⟩
  · rw [show ran = _ from runEngine_of_refused refused]
    exact .refl b
  · obtain ⟨asked, asks, waits⟩ := runEngine_of_stuck stuck number old act
    rw [show ran = _ from waits]
    exact .quiet b (Session.happens_of_ask asks) rfl rfl
  · have got := Session.history_of_handOver given
    obtain ⟨-, free, engine, -, e⟩ := Session.handOver_eq_done_iff.mp given
    have holds : handed.running = true := by rw [← e]
    have led := lawful number handed.limit { b with session := handed }
    rw [show ran = _ from runEngine_of_handOver given number old act]
    generalize act number handed.limit { b with session := handed } = acted at led
    obtain ⟨after, verdict, report⟩ := acted
    obtain ⟨keeps, events, history, counted⟩ := led
    have held : after.session.running = true := keeps holds
    have answered : b.Asks (⟨1, 0⟩ + count report)
        { after with session := after.session.takeBack } := by
      refine ⟨fun taken => absurd (free.symm.trans taken) Bool.false_ne_true, _,
        (got.trans history).next .tookBack, fun _ => ?_⟩
      rw [Session.asked_append, Session.asked_append, counted (held.trans holds.symm)]
      rfl
    cases verdict with
    | never =>
      refine ⟨fun _ => held, _, got.trans history, fun same => ?_⟩
      exact absurd (held.symm.trans (same.trans free)) nofun
    | noTree => exact answered
    | tree => exact answered.of_session rfl

theorem held_asks (b : Bench) (number : Nat) (input : Input) (old : Option Nat) :
    let ran := b.holding input fun held => held.runEngine number (held.readInput input) old act
    b.Asks (parseTally count ran.2) ran.1 := by
  intro ran
  cases locked : b.isLocked input with
  | true =>
    rw [show ran = _ from holding_of_locked locked _]
    exact .refl b
  | false =>
    have led := runEngine_asks count lawful (b.lock input) number ((b.lock input).readInput input) old
    obtain ⟨outcome, -⟩ := holding_of_free locked fun held =>
      held.runEngine number (held.readInput input) old act
    have same := holding_keeps (·.session) (fun _ => rfl) locked fun held =>
      held.runEngine number (held.readInput input) old act
    rw [show ran.2 = _ from outcome]
    exact Asks.of_session (b := b) ⟨led.keeps, led.counts⟩ same

theorem runRound_asks (b : Bench) (input : Input) (old : Option Nat) :
    let ran := b.runRound input old act
    b.Asks (parseTally count ran.2) ran.1 := by
  have led := held_asks count lawful b b.session.begun input old
  rw [runRound_eq]
  simp only at led ⊢
  split
  · exact led
  · exact led.leaveRound

theorem enteredRound_asks {session : Session} (entered : b.session.enter = .entered session)
    (input : Input) (old : Option Nat) :
    let ran := runRound { b with session } input old act
    b.Asks (parseTally count ran.2) ran.1 := by
  obtain ⟨alive, idle, rfl⟩ := enter_eq_entered_iff.mp entered
  have led := ((Asks.refl b).next (.began alive idle) rfl).trans (runRound_asks count lawful _ input old)
  rwa [show (0 : Tally) + Session.Event.asks _ = 0 from rfl, Tally.zero_add] at led

/-- A parse asks for what its outcome tells, and for what its company asks for. -/
theorem parse_asks (friendly : ∀ b : Bench, b.Asks (waited (company b).2) (company b).1) (b : Bench)
    (mode : Mode) (source : Source) (old : Option Nat) :
    let ran := b.parse mode source old act company
    b.Asks (ran.2.2.elim 0 waited + parseTally count ran.2.1) ran.1 := by
  unfold parse
  cases mode with
  | withinRound =>
    simp only [parseWithin]
    cases b.settle source with
    | error fault => exact .refl b
    | ok input =>
      cases active : b.session.activeRound with
      | error fault =>
        simp only [holding_runActive_of_error active]
        split <;> exact .refl b
      | ok number =>
        simp only [holding_runActive active, Option.elim_none, Tally.zero_add]
        exact held_asks count lawful b number input old
  | wholeRound =>
    simp only [parseRound]
    cases b.settle source with
    | error fault => exact .refl b
    | ok input =>
      cases met : b.session.enter with
      | refused fault => exact .refl b
      | entered session =>
        rw [Option.elim_none, Tally.zero_add]
        exact enteredRound_asks count lawful met input old
      | waits =>
        have led := friendly b
        simp only
        cases met' : (company b).1.session.enter with
        | refused fault | waits => exact led
        | entered session => exact led.trans (enteredRound_asks count lawful met' input old)

end

end HostParsing.Bench

namespace HostParsing.Session

open Bench (Asks)

theorem cancelAndWait_asks {α : Type} {company : Bench.Company α} {waited : α → Tally}
    (friendly : ∀ b : Bench, b.Asks (waited (company b).2) (company b).1) (b : Bench) :
    let ran := b.cancelAndWait company
    b.Asks (ran.2.2.elim 0 waited) ran.1 := by
  intro ran
  cases active : b.session.round with
  | none =>
    rw [show ran = _ from Bench.cancelAndWait_of_idle active company]
    exact .refl b
  | some number =>
    obtain ⟨left, told⟩ := Bench.cancelAndWait_of_active active company
    have led := (Asks.quiet b (.cancelled number) rfl rfl).trans (friendly _)
    rw [Tally.zero_add] at led
    rw [left, told]
    exact led

theorem requestCancellation_asks (b : Bench) :
    b.Asks 0 { b with session := b.session.requestCancellation.2 } := by
  unfold requestCancellation
  cases b.session.round with
  | some number => exact .quiet b (.cancelled number) rfl rfl
  | none => exact .refl b

/-- A change of the session that asks nothing of the engine. -/
theorem changing_asks {b : Bench} {changed : Outcome Fault Session} {answer : Session → Answer}
    {waited : List Turn → Tally}
    (step : ∀ s, changed = .done s →
      ∃ event, event.asks = 0 ∧ event.moves = false ∧ Happens b.session event s) :
    let ran := changing b changed answer
    b.Asks (ran.2.2.elim 0 waited) ran.1 := by
  cases e : changed with
  | done s =>
    obtain ⟨event, asks, stays, happens⟩ := step s e
    exact .quiet b happens asks stays
  | refused fault | stuck => exact .refl b

theorem reset_asks {b : Bench} {answer : Session → Answer} {waited : List Turn → Tally} :
    let ran := changing b b.session.reset answer
    b.Asks (ran.2.2.elim 0 waited + Call.reset.tally ran.2.1) ran.1 := by
  cases e : b.session.reset with
  | done s => exact (Asks.refl b).next (happens_of_reset e) rfl
  | refused fault | stuck => exact .refl b

/-- Nobody asks for anything who destroys a session. -/
theorem destroying_asks {b : Bench} {waited : List Turn → Tally} :
    let ran := destroying b
    b.Asks (ran.2.2.elim 0 waited + Call.destroy.tally ran.2.1) ran.1 := by
  unfold destroying destroy
  cases marks : b.session.markDestroyed with
  | error fault => exact .refl b
  | ok session =>
    have marked := Asks.quiet b (happens_of_markDestroyed marks) rfl rfl
    obtain ⟨-, rfl⟩ := markDestroyed_eq_ok_iff.mp marks
    simp only
    split
    · rename_i gives
      exact marked.next (happens_of_giveUp rfl gives) rfl
    · exact marked

/-- A call made alone asks for nothing while it waits. -/
theorem Asks.of_alone {α : Type} {b after : Bench} {turns : Option α} {tally : Tally}
    (led : b.Asks (turns.elim 0 (fun _ => 0) + tally) after) : b.Asks tally after := by
  cases turns with
  | none | some =>
    rw [show Option.elim _ (0 : Tally) _ = 0 from rfl, Tally.zero_add] at led
    exact led

/-- The count of a parse is that of its outcome before it is made an answer. -/
theorem tally_parse (mode : Bench.Mode) (source : Bench.Source) (old : Option Nat) (script : List Step)
    (outcome : Outcome Fault (Option Tree × Report)) :
    (Call.parse mode source old script).tally (outcome.map fun (tree, report) => .parsed tree report) =
      Bench.parseTally (fun report : Report => scriptTally script report.during) outcome := by
  cases outcome with
  | done answer =>
    obtain ⟨tree, _, _, _, during⟩ := answer
    rfl
  | refused fault | stuck => rfl

theorem scriptTally_nil (script : List Step) : scriptTally script [] = 0 := by
  induction script with
  | nil => rfl
  | cons step rest ih =>
    cases step with
    | call call => rfl
    | _ => exact ih

mutual

/-- A call asks for what its answer tells, and for what the others ask for while it
waits. -/
theorem Call.run_asks (call : Call) (others : Others) (waited : List Turn → Tally)
    (friendly : ∀ b : Bench, b.Asks (waited (others b).2) (others b).1) (b : Bench) :
    b.Asks ((call.run others b).2.2.elim 0 waited + call.tally (call.run others b).2.1)
      (call.run others b).1 := by
  cases call with
  | isParsing | limit | engine =>
    rw [Call.run]
    exact .refl b
  | beginRound =>
    rw [Call.run]
    exact changing_asks fun s e => ⟨_, rfl, rfl, happens_of_beginRound (done_of_ofExcept e)⟩
  | endRound =>
    rw [Call.run]
    exact changing_asks fun s e =>
      let ⟨_, ended⟩ := happens_of_endRound (done_of_ofExcept e)
      ⟨_, rfl, rfl, ended⟩
  | setLimit limit =>
    rw [Call.run]
    exact changing_asks fun s e => ⟨_, rfl, rfl, happens_of_setLimit (done_of_ofExcept e)⟩
  | reset =>
    rw [Call.run]
    exact reset_asks
  | destroy =>
    rw [Call.run]
    exact destroying_asks
  | parse mode source old script =>
    have ran := Bench.parse_asks (fun report : Report => scriptTally script report.during)
      (fun number limit b => by
        obtain ⟨more, during, led⟩ := runScript_tells script number limit 0 [] b
        rw [during]
        exact led) friendly b mode source old
    rw [Call.run, tally_parse]
    exact ran
  | requestCancellation =>
    rw [Call.run]
    exact requestCancellation_asks b
  | cancelAndWait =>
    rw [Call.run]
    exact cancelAndWait_asks friendly b
  | alongside waiter beside =>
    have led := waiter.run_asks _ _ (fun b => runAll_asks beside b) b
    rw [Call.run]
    generalize waiter.run (fun b => runAll beside b) b = ran at led
    obtain ⟨met, outcome, turns⟩ := ran
    cases turns with
    | some turns =>
      -- The others have asked first, but the order does not count.
      show b.Asks (0 + (waiter.tally outcome + tallyAll beside turns)) met
      rw [Tally.zero_add, Tally.add_comm]
      exact led
    | none =>
      show b.Asks (0 + (waiter.tally outcome + tallyAll beside (runAll beside met).2)) _
      rw [show Option.elim none 0 (tallyAll beside) = 0 from rfl] at led
      rw [Tally.zero_add] at led ⊢
      exact led.trans (runAll_asks beside met)
  | token number cancel =>
    rw [Call.run]
    cases cancel with
    | true => exact .quiet b (.cancelled number) rfl rfl
    | false => exact .refl b
  | registry call =>
    rw [Call.run]
    split
    · exact .refl b
    · cases call.run b.desk with
      | ok done => exact (Asks.refl b).of_session rfl
      | error fault => exact .refl b

/-- A script asks for what the turns tell that it adds to its report. -/
theorem runScript_tells (script : List Step) (number : Nat) (limit : Option Nat) (spent : Nat)
    (during : List Turn) (b : Bench) :
    ∃ more, (runScript script number limit spent during b).2.2.during = during ++ more ∧
      b.Asks (scriptTally script more) (runScript script number limit spent during b).1 := by
  match script with
  | [] =>
    rw [runScript]
    exact ⟨[], (List.append_nil _).symm, .refl b⟩
  | .poll :: rest =>
    rw [runScript]
    split
    · exact runScript_tells rest number limit spent during b
    · exact ⟨[], (List.append_nil _).symm, scriptTally_nil _ ▸ .refl b⟩
  | .spend nanos :: rest =>
    rw [runScript]
    split
    · exact ⟨[], (List.append_nil _).symm, scriptTally_nil _ ▸ .refl b⟩
    · exact runScript_tells rest number limit (spent + nanos) during b
  | .giveUp :: _ =>
    rw [runScript]
    exact ⟨[], (List.append_nil _).symm, scriptTally_nil _ ▸ .refl b⟩
  | .call call :: rest =>
    have led := Asks.of_alone (call.run_asks alone (fun _ => 0) (fun b => .refl b) b)
    rw [runScript_call]
    split
    · refine ⟨[call.turn b], rfl, ?_⟩
      have last : scriptTally (.call call :: rest) [call.turn b] =
          call.tally (call.run alone b).2.1 + 0 := by
        rw [← scriptTally_nil rest]
        rfl
      exact last ▸ led.trans (.refl _)
    · obtain ⟨more, during', led'⟩ := runScript_tells rest number limit spent
        (during ++ [call.turn b]) (call.run alone b).1
      refine ⟨call.turn b :: more, ?_, led.trans led'⟩
      rw [during', List.append_assoc]
      rfl

theorem runAll_asks (calls : List Call) (b : Bench) :
    b.Asks (tallyAll calls (runAll calls b).2) (runAll calls b).1 := by
  match calls with
  | [] =>
    rw [runAll]
    exact .refl b
  | call :: rest =>
    have led := call.run_asks alone (fun _ => 0) (fun b => .refl b) b
    have led' := runAll_asks rest (call.run (fun b => (b, [])) b).1
    rw [runAll, tallyAll]
    exact (Asks.of_alone led).trans led'

end

end HostParsing.Session
