import HostParsing.Proofs.Registry.Edits
import HostParsing.Proofs.Session.Late
/-!
# The registry during calls on a session

Clients reach the registry of a session by the calls that they put to it, at whatever
stage of a parse they do so. `deskCallsAll` lists these calls in their order, those that
are made while a parse runs or a call waits among them, but not those that wait for a
buffer. Nothing else changes the desk: what calls leave of it is what the listed ones make
of it (`desk_of_runAll`).
-/

namespace HostParsing.Bench

variable {ρ α : Type} {b : Bench} {mode : Mode} {source : Source} {company : Company α}
  {a : Admission}

/-- What is put to the registry where a parse comes to the engine. -/
def engineDeskCalls (a : Admission) (engine : Nat → Option Nat → Bench → List Registry.Call) :
    List Registry.Call :=
  match a.bench.session.handOver a.input with
  | .done handed => engine a.number handed.limit { a.bench with session := handed }
  | _ => []

/-- What is put to the registry in the course of a parse, given what its engine and its
company put to it. -/
def parseDeskCalls {α : Type} (b : Bench) (mode : Mode) (source : Source)
    (engine : Nat → Option Nat → Bench → List Registry.Call) (company : Company α)
    (waiting : Bench → List Registry.Call) : List Registry.Call :=
  (bif b.awaits mode source then waiting b else []) ++
    match b.admission mode source company with
    | some a => engineDeskCalls a engine
    | none => []

/-- A parse begins and ends its round, and locks and unlocks its buffer, without regard to
the desk. -/
theorem desk_of_parse (admitted : b.admission mode source company = some a) (old : Option Nat)
    (act : Behaviour ρ) : a.bench.desk = (b.met mode source company).desk ∧
      (b.parse mode source old act company).1.desk =
        (a.bench.runEngine a.number a.input old act).1.desk := by
  cases mode with
  | withinRound =>
    refine ⟨?_, (parse_withinRound admitted old act).2.1⟩
    obtain ⟨input, -, -, -, e⟩ := admission_withinRound admitted
    rw [e]
    rfl
  | wholeRound =>
    refine ⟨?_, (parse_wholeRound admitted old act).2.1⟩
    obtain ⟨input, settled, ⟨-, admits⟩ | ⟨waits, admits⟩⟩ := admission_wholeRound admitted
    · obtain ⟨entered, -, e⟩ := entry_spec admits
      simp only [met, settled, entered]
      rw [e]
      rfl
    · obtain ⟨-, -, e⟩ := entry_spec admits
      simp only [met, settled, waits]
      rw [e]
      rfl

section

variable {engine : Nat → Option Nat → Bench → List Registry.Call}
  {waiting : Bench → List Registry.Call} {act : Behaviour ρ}
  (lawful : ∀ number limit (b : Bench),
    (act number limit b).1.desk = Registry.runAll b.desk (engine number limit b))

include lawful

theorem desk_of_runEngine (a : Admission) (old : Option Nat) :
    (a.bench.runEngine a.number a.input old act).1.desk =
      Registry.runAll a.bench.desk (engineDeskCalls a engine) := by
  unfold engineDeskCalls
  rcases handOver_cases a.bench.session a.input with ⟨fault, refused⟩ | stuck | ⟨handed, given⟩
  · rw [refused, runEngine_of_refused refused]
    rfl
  · obtain ⟨asked, -, waits⟩ := runEngine_of_stuck stuck a.number old act
    rw [stuck, waits]
    rfl
  · rw [given, runEngine_of_handOver given, desk_conclude]
    exact lawful a.number handed.limit { a.bench with session := handed }

/-- What a parse leaves of the desk is what the calls on the registry make of it that are
made while it waits and while its engine runs. -/
theorem parse_desk (friendly : ∀ b : Bench, (company b).1.desk = Registry.runAll b.desk (waiting b))
    (b : Bench) (mode : Mode) (source : Source) (old : Option Nat) :
    (b.parse mode source old act company).1.desk =
      Registry.runAll b.desk (b.parseDeskCalls mode source engine company waiting) := by
  have waited : (b.met mode source company).desk =
      Registry.runAll b.desk (bif b.awaits mode source then waiting b else []) := by
    rw [met_eq]
    cases b.awaits mode source with
    | true => exact friendly b
    | false => rfl
  rw [parseDeskCalls, Registry.runAll_append, ← waited]
  cases admitted : b.admission mode source company with
  | none =>
    rcases (parse_of_not_admitted admitted old act).1 with same | begun
    · rw [same]
      rfl
    · rw [begun]
      rfl
  | some a =>
    obtain ⟨same, ran⟩ := desk_of_parse admitted old act
    rw [ran, ← same]
    exact desk_of_runEngine lawful a old

end

end HostParsing.Bench

namespace HostParsing.Session

mutual

/-- What a call puts to the registry, given what the others put to it while it waits. -/
def Call.deskCalls (call : Call) (others : Others) (waiting : Bench → List Registry.Call)
    (b : Bench) : List Registry.Call :=
  match call with
  | .registry call => if b.blocks call then [] else [call]
  | .parse mode source _ script =>
    b.parseDeskCalls mode source (fun number limit b => scriptDeskCalls script number limit 0 b)
      others waiting
  | .cancelAndWait => (b.session.round.map fun number =>
      waiting { b with session := (b.session.cancel number).2 }).getD []
  | .alongside waiter beside =>
    waiter.deskCalls (fun b => runAll beside b) (fun b => deskCallsAll beside b) b ++
      match waiter.run (fun b => runAll beside b) b with
      | (_, _, some _) => []
      | (met, _, none) => deskCallsAll beside met
  | .isParsing | .beginRound | .endRound | .reset | .destroy | .setLimit _ | .limit | .engine
  | .requestCancellation | .token _ _ => []

/-- What a script puts to the registry from a step on. -/
def scriptDeskCalls (script : List Step) (number : Nat) (limit : Option Nat) (spent : Nat)
    (b : Bench) : List Registry.Call :=
  match script with
  | [] | .giveUp :: _ => []
  | .poll :: rest => if b.isWanted number then scriptDeskCalls rest number limit spent b else []
  | .spend nanos :: rest =>
    if limit.any (· ≤ spent + nanos) then []
    else scriptDeskCalls rest number limit (spent + nanos) b
  | .call call :: rest =>
    call.deskCalls alone (fun _ => []) b ++
      if (call.turn b).waits then []
      else scriptDeskCalls rest number limit spent (call.run alone b).1

/-- What calls put to the registry that are made one after the other, each alone. -/
def deskCallsAll (calls : List Call) (b : Bench) : List Registry.Call :=
  match calls with
  | [] => []
  | call :: rest => call.deskCalls alone (fun _ => []) b ++ deskCallsAll rest (call.run alone b).1

end

theorem changing_desk (b : Bench) (changed : Outcome Fault Session) (answer : Session → Answer) :
    (changing b changed answer).1.desk = b.desk := by
  cases changed <;> rfl

theorem cancelAndWait_desk {α : Type} {company : Bench.Company α}
    {waiting : Bench → List Registry.Call}
    (friendly : ∀ b : Bench, (company b).1.desk = Registry.runAll b.desk (waiting b)) (b : Bench) :
    (b.cancelAndWait company).1.desk =
      Registry.runAll b.desk ((b.session.round.map fun number =>
        waiting { b with session := (b.session.cancel number).2 }).getD []) := by
  cases active : b.session.round with
  | none =>
    rw [Bench.cancelAndWait_of_idle active]
    rfl
  | some number =>
    rw [(Bench.cancelAndWait_of_active active company).1]
    exact friendly { b with session := (b.session.cancel number).2 }

mutual

/-- A call leaves of the desk what the calls make of it that it puts to the registry. -/
theorem Call.desk_of_run (call : Call) {others : Others} {waiting : Bench → List Registry.Call}
    (friendly : ∀ b : Bench, (others b).1.desk = Registry.runAll b.desk (waiting b)) (b : Bench) :
    (call.run others b).1.desk = Registry.runAll b.desk (call.deskCalls others waiting b) := by
  cases call with
  | isParsing | limit | engine | requestCancellation =>
    rw [Call.run, Call.deskCalls]
    rfl
  | beginRound | endRound | reset | setLimit =>
    rw [Call.run, Call.deskCalls]
    exact changing_desk b _ _
  | destroy =>
    rw [Call.run, Call.deskCalls]
    rfl
  | parse mode source old script =>
    rw [Call.run, Call.deskCalls]
    exact Bench.parse_desk (fun number limit b => desk_of_runScript script number limit 0 [] b)
      friendly b mode source old
  | cancelAndWait =>
    rw [Call.run, Call.deskCalls]
    exact cancelAndWait_desk friendly b
  | alongside waiter beside =>
    rw [Call.run, Call.deskCalls, Registry.runAll_append]
    have led := waiter.desk_of_run (fun b => desk_of_runAll beside b) b
    generalize waiter.run (fun b => runAll beside b) b = ran at led
    obtain ⟨met, outcome, turns⟩ := ran
    rw [← led]
    cases turns with
    | some turns => rfl
    | none => exact desk_of_runAll beside met
  | token number cancel =>
    rw [Call.run, Call.deskCalls]
    rfl
  | registry call =>
    rw [Call.run, Call.deskCalls]
    split
    · rfl
    · rw [Registry.runAll]
      cases call.run b.desk <;> rfl

theorem desk_of_runScript (script : List Step) (number : Nat) (limit : Option Nat) (spent : Nat)
    (during : List Turn) (b : Bench) :
    (runScript script number limit spent during b).1.desk =
      Registry.runAll b.desk (scriptDeskCalls script number limit spent b) := by
  match script with
  | [] =>
    rw [runScript, scriptDeskCalls]
    rfl
  | .poll :: rest =>
    rw [runScript, scriptDeskCalls]
    split
    · exact desk_of_runScript rest number limit spent during b
    · rfl
  | .spend nanos :: rest =>
    rw [runScript, scriptDeskCalls]
    split
    · rfl
    · exact desk_of_runScript rest number limit (spent + nanos) during b
  | .giveUp :: _ =>
    rw [runScript, scriptDeskCalls]
    rfl
  | .call call :: rest =>
    have led : (call.run alone b).1.desk =
        Registry.runAll b.desk (call.deskCalls alone (fun _ => []) b) :=
      call.desk_of_run (fun _ => rfl) b
    rw [runScript_call, scriptDeskCalls, Registry.runAll_append, ← led]
    split
    · rfl
    · exact desk_of_runScript rest number limit spent _ _

/-- Calls leave of the desk what the calls make of it that they put to the registry. -/
theorem desk_of_runAll (calls : List Call) (b : Bench) :
    (runAll calls b).1.desk = Registry.runAll b.desk (deskCallsAll calls b) := by
  match calls with
  | [] =>
    rw [runAll, deskCallsAll]
    rfl
  | call :: rest =>
    have led : (call.run alone b).1.desk =
        Registry.runAll b.desk (call.deskCalls alone (fun _ => []) b) :=
      call.desk_of_run (fun _ => rfl) b
    rw [runAll, deskCallsAll, Registry.runAll_append, ← led]
    exact desk_of_runAll rest _

end

end HostParsing.Session
