import HostParsing.Proofs.Session.Starts
import HostParsing.Session.Call
/-!
# Calls and the history

Every call is a piece of the session's history, in which those rounds begin that
the call logs, and so is every script of an engine (`Call.run_starts`,
`runScript_starts`; without regard to the log, `runScript_leads` and `runAll_leads`).
-/

namespace HostParsing.Bench

/-- The log of a call that cancels the active round and waits for its end. -/
def cancelAndWaitLog (b : Bench) (waiting : Bench → Log) : Log :=
  match b.session.round with
  | none => [none]
  | some number => none :: waiting { b with session := (b.session.cancel number).2 }

end HostParsing.Bench

namespace HostParsing.Session

open Bench (Leads Log Starts)

/-- The company of a call that is made alone. -/
abbrev alone : Others := fun b => (b, [])

/-- How a call ends that is made alone. -/
def Call.turn (call : Call) (b : Bench) : Turn :=
  .mk (call.run alone b).2.1 (call.run alone b).1.session.phase

/-- A script goes on after a call, if the call returns. -/
theorem runScript_call (call : Call) (rest : List Step) (number : Nat) (limit : Option Nat)
    (spent : Nat) (during : List Turn) (b : Bench) :
    runScript (.call call :: rest) number limit spent during b =
      if (call.turn b).waits then
        ((call.run alone b).1, .never, .mk number limit spent (during ++ [call.turn b]))
      else
        runScript rest number limit spent (during ++ [call.turn b]) (call.run alone b).1 := by
  rw [runScript]
  rfl

mutual

/-- The log of a call, given that of what the others do while it waits. Neither
tokens nor the registry are asked of the session. -/
def Call.log (call : Call) (others : Others) (waiting : Bench → Log) (b : Bench) : Log :=
  match call with
  | .isParsing | .endRound | .reset | .destroy | .setLimit _ | .limit | .engine
  | .requestCancellation => [none]
  | .beginRound => [b.session.beginRound.toOption.map (·.begun)]
  | .parse mode source _ script =>
    b.parseLog mode source (fun number limit b => scriptLog script number limit 0 b) others waiting
  | .cancelAndWait => b.cancelAndWaitLog waiting
  | .alongside waiter beside =>
    waiter.log (fun b => runAll beside b) (fun b => logAll beside b) b ++
      match waiter.run (fun b => runAll beside b) b with
      | (_, _, some _) => []
      | (met, _, none) => logAll beside met
  | .token _ _ | .registry _ => []

/-- The log of the calls that a script makes from a step on. -/
def scriptLog (script : List Step) (number : Nat) (limit : Option Nat) (spent : Nat) (b : Bench) :
    Log :=
  match script with
  | [] | .giveUp :: _ => []
  | .poll :: rest => if b.isWanted number then scriptLog rest number limit spent b else []
  | .spend nanos :: rest =>
    if limit.any (· ≤ spent + nanos) then [] else scriptLog rest number limit (spent + nanos) b
  | .call call :: rest =>
    call.log alone (fun _ => []) b ++
      if (call.turn b).waits then []
      else scriptLog rest number limit spent (call.run alone b).1

/-- The log of calls one after the other, each alone. -/
def logAll (calls : List Call) (b : Bench) : Log :=
  match calls with
  | [] => []
  | call :: rest =>
    call.log alone (fun _ => []) b ++ logAll rest (call.run alone b).1

end

variable {s t : Session}

theorem happens_of_beginRound (done : s.beginRound = .ok t) : Happens s (.began t.begun) t := by
  unfold beginRound at done
  split at done
  · cases done
  · rename_i alive
    split at done
    · cases done
    · rename_i idle
      cases done
      exact .began (by simpa using alive) (by simpa using idle)

theorem happens_of_endRound (done : s.endRound = .ok t) : ∃ number, Happens s (.ended number) t := by
  unfold endRound at done
  split at done
  · rename_i active
    cases done
    exact ⟨_, .ended active⟩
  · cases done

theorem happens_of_setLimit {limit : Option Nat} (done : s.setLimit limit = .ok t) :
    Happens s (.limited (limit.filter (· ≠ 0))) t := by
  unfold setLimit at done
  split at done
  · cases done
  · rename_i alive
    cases done
    exact .limited (by simpa using alive) limit

theorem happens_of_resetEngine (done : s.resetEngine = .done t) : Happens s .reset t := by
  unfold resetEngine freeEngine at done
  split at done
  · cases done
  · rename_i free
    cases present : s.engine with
    | none =>
      rw [present] at done
      cases done
    | some engine =>
      rw [present] at done
      cases done
      exact .reset present (by simpa using free)

theorem happens_of_reset (done : s.reset = .done t) : Happens s .reset t := by
  unfold reset at done
  split at done
  · cases done
  · exact happens_of_resetEngine done

theorem phase_eq_idle_iff : s.phase = .idle ↔ s.destroyed = false ∧ s.round = none := by
  unfold phase
  cases s.destroyed <;> cases s.round <;> simp

theorem phase_eq_destroyed_iff : s.phase = .destroyed ↔ s.destroyed = true := by
  unfold phase
  cases s.destroyed <;> cases s.round <;> simp

theorem markDestroyed_eq_ok_iff : s.markDestroyed = .ok t ↔
    s.phase = .idle ∧ { s with destroyed := true, leaving := true } = t := by
  rw [phase_eq_idle_iff]
  unfold markDestroyed
  cases s.destroyed <;> cases s.round <;> simp

theorem giveUp_eq_some_iff : s.giveUp = some t ↔
    s.running = false ∧ { s with leaving := false, engine := none } = t := by
  unfold giveUp
  cases s.running <;> simp

/-- A call to destroy a session is refused, or answered, or waits for the engine. -/
theorem destroy_cases (s : Session) :
    (s.phase ≠ .idle ∧ ∃ fault, s.destroy = (s, .refused fault)) ∨
      (s.phase = .idle ∧ s.running = false ∧
        s.destroy =
          ({ s with destroyed := true, leaving := false, engine := none }, .done ())) ∨
      (s.phase = .idle ∧ s.running = true ∧
        s.destroy = ({ s with destroyed := true, leaving := true }, .stuck)) := by
  unfold destroy
  cases marks : s.markDestroyed with
  | error fault =>
    refine .inl ⟨fun idle => ?_, fault, rfl⟩
    rw [markDestroyed_eq_ok_iff.mpr ⟨idle, rfl⟩] at marks
    cases marks
  | ok marked =>
    obtain ⟨idle, rfl⟩ := markDestroyed_eq_ok_iff.mp marks
    cases held : s.running with
    | false => exact .inr (.inl ⟨idle, rfl, by simp [giveUp]⟩)
    | true => exact .inr (.inr ⟨idle, rfl, by simp [giveUp]⟩)

theorem happens_of_markDestroyed (done : s.markDestroyed = .ok t) : Happens s .destroyed t := by
  obtain ⟨idle, rfl⟩ := markDestroyed_eq_ok_iff.mp done
  obtain ⟨alive, none⟩ := phase_eq_idle_iff.mp idle
  exact .destroyed alive none

theorem happens_of_giveUp (leaving : s.leaving = true) (gone : s.giveUp = some t) :
    Happens s .released t := by
  obtain ⟨free, rfl⟩ := giveUp_eq_some_iff.mp gone
  exact .released leaving free

/-- The stages that a call to destroy comes through. -/
theorem history_of_destroy (s : Session) : ∃ events, History s events s.destroy.1 ∧
    ∀ event ∈ events, event = .destroyed ∨ event = .released := by
  obtain ⟨-, fault, e⟩ | ⟨idle, free, e⟩ | ⟨idle, -, e⟩ := s.destroy_cases
  · rw [e]
    exact ⟨[], .nil, nofun⟩
  · have marked := happens_of_markDestroyed (markDestroyed_eq_ok_iff.mpr ⟨idle, rfl⟩)
    have released := happens_of_giveUp (s := { s with destroyed := true, leaving := true }) rfl
      (giveUp_eq_some_iff.mpr ⟨free, rfl⟩)
    rw [e]
    exact ⟨[.destroyed, .released], (History.single marked).next released, by simp⟩
  · have marked := happens_of_markDestroyed (markDestroyed_eq_ok_iff.mpr ⟨idle, rfl⟩)
    rw [e]
    exact ⟨[.destroyed], .single marked, by simp⟩

theorem done_of_ofExcept {result : Except Fault Session} (e : Outcome.ofExcept result = .done t) :
    result = .ok t := by
  cases result with
  | ok s => cases e; rfl
  | error fault => cases e

/-- A change of the session that starts no round. -/
theorem changing_starts {b : Bench} {changed : Outcome Fault Session}
    (step : ∀ s, changed = .done s → ∃ event, event.began? = none ∧ Happens b.session event s)
    (answer : Session → Answer) : b.Starts [none] (changing b changed answer).1 := by
  cases e : changed with
  | done s =>
    obtain ⟨event, quiet, happens⟩ := step s e
    exact (Starts.idle b).quiet happens quiet
  | refused fault => exact .idle b
  | stuck => exact .idle b

theorem destroying_starts (b : Bench) : b.Starts [none] (destroying b).1 := by
  obtain ⟨events, history, only⟩ := history_of_destroy b.session
  refine .quiets history fun event member => ?_
  rcases only event member with rfl | rfl <;> rfl

theorem beginRound_starts (b : Bench) (answer : Session → Answer) :
    b.Starts [b.session.beginRound.toOption.map (·.begun)]
      (changing b (.ofExcept b.session.beginRound) answer).1 := by
  cases begun : b.session.beginRound with
  | error fault => exact .idle b
  | ok s => exact .began (happens_of_beginRound begun)

theorem cancel_starts (b : Bench) (number : Nat) :
    b.Starts [] { b with session := (b.session.cancel number).2 } :=
  (Starts.refl b).quiet (.cancelled number) rfl

theorem requestCancellation_starts (b : Bench) :
    b.Starts [none] { b with session := b.session.requestCancellation.2 } := by
  unfold requestCancellation
  cases b.session.round with
  | some number => exact (Starts.idle b).trans (cancel_starts b number)
  | none => exact .idle b

theorem cancelAndWait_starts {α : Type} {company : Bench.Company α} {waiting : Bench → Log}
    (friendly : ∀ b : Bench, b.Starts (waiting b) (company b).1) (b : Bench) :
    b.Starts (b.cancelAndWaitLog waiting) (b.cancelAndWait company).1 := by
  unfold Bench.cancelAndWaitLog
  cases active : b.session.round with
  | none =>
    rw [Bench.cancelAndWait_of_idle active]
    exact .idle b
  | some number =>
    rw [(Bench.cancelAndWait_of_active active company).1]
    exact ((Starts.idle b).trans (cancel_starts b number)).trans (friendly _)

mutual

/-- A call logs the rounds that it starts. -/
theorem Call.run_starts (call : Call) {others : Others} {waiting : Bench → Log}
    (friendly : ∀ b : Bench, b.Starts (waiting b) (others b).1) (b : Bench) :
    b.Starts (call.log others waiting b) (call.run others b).1 := by
  cases call with
  | isParsing | limit | engine =>
    rw [Call.run, Call.log]
    exact .idle b
  | beginRound =>
    rw [Call.run, Call.log]
    exact beginRound_starts b _
  | endRound =>
    rw [Call.run, Call.log]
    exact changing_starts (fun s e =>
      let ⟨_, ended⟩ := happens_of_endRound (done_of_ofExcept e)
      ⟨_, rfl, ended⟩) _
  | setLimit limit =>
    rw [Call.run, Call.log]
    exact changing_starts (fun s e => ⟨_, rfl, happens_of_setLimit (done_of_ofExcept e)⟩) _
  | reset =>
    rw [Call.run, Call.log]
    exact changing_starts (fun s e => ⟨_, rfl, happens_of_reset e⟩) _
  | destroy =>
    rw [Call.run, Call.log]
    exact destroying_starts b
  | parse mode source old script =>
    rw [Call.run, Call.log]
    exact Bench.parse_starts (fun number limit b => runScript_starts script number limit 0 [] b)
      friendly b mode source old
  | requestCancellation =>
    rw [Call.run, Call.log]
    exact requestCancellation_starts b
  | cancelAndWait =>
    rw [Call.run, Call.log]
    exact cancelAndWait_starts friendly b
  | alongside waiter beside =>
    rw [Call.run, Call.log]
    have led := waiter.run_starts (fun b => runAll_starts beside b) b
    generalize waiter.run (fun b => runAll beside b) b = ran at led
    obtain ⟨met, outcome, turns⟩ := ran
    cases turns with
    | some turns => exact led.trans (.refl _)
    | none => exact led.trans (runAll_starts beside met)
  | token number cancel =>
    rw [Call.run, Call.log]
    cases cancel with
    | true => exact cancel_starts b number
    | false => exact .refl b
  | registry call =>
    rw [Call.run, Call.log]
    split
    · exact .refl b
    · cases call.run b.desk with
      | ok done => exact .refl b
      | error fault => exact .refl b

theorem runScript_starts (script : List Step) (number : Nat) (limit : Option Nat) (spent : Nat)
    (during : List Turn) (b : Bench) :
    b.Starts (scriptLog script number limit spent b)
      (runScript script number limit spent during b).1 := by
  match script with
  | [] =>
    rw [runScript, scriptLog]
    exact .refl b
  | .poll :: rest =>
    rw [runScript, scriptLog]
    split
    · exact runScript_starts rest number limit spent during b
    · exact .refl b
  | .spend nanos :: rest =>
    rw [runScript, scriptLog]
    split
    · exact .refl b
    · exact runScript_starts rest number limit (spent + nanos) during b
  | .giveUp :: _ =>
    rw [runScript, scriptLog]
    exact .refl b
  | .call call :: rest =>
    have called : b.Starts (call.log alone (fun _ => []) b) (call.run alone b).1 :=
      call.run_starts (fun b => .refl b) b
    rw [runScript_call, scriptLog]
    split
    · exact called.trans (.refl _)
    · exact called.trans (runScript_starts rest number limit spent _ _)

theorem runAll_starts (calls : List Call) (b : Bench) :
    b.Starts (logAll calls b) (runAll calls b).1 := by
  match calls with
  | [] =>
    rw [runAll, logAll]
    exact .refl b
  | call :: rest =>
    rw [runAll, logAll]
    exact (call.run_starts (fun b => .refl b) b).trans (runAll_starts rest _)

end

theorem runScript_leads (script : List Step) (number : Nat) (limit : Option Nat) (spent : Nat)
    (during : List Turn) (b : Bench) : b.Leads (runScript script number limit spent during b).1 :=
  (runScript_starts script number limit spent during b).leads

theorem runAll_leads (calls : List Call) (b : Bench) : b.Leads (runAll calls b).1 :=
  (runAll_starts calls b).leads

end HostParsing.Session
