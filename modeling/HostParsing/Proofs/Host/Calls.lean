import HostParsing.Proofs.Host.Parse
import HostParsing.Proofs.Session.Limit
import Mathlib
/-!
# Calls on the host's parser

Whatever is asked of a host's parser, nobody holds its engine afterwards, and its time
limit is the one that was set last (`Serves`). A parse that a host asks for at any time
therefore ends as `Ends` says, and leaves all texts alone (`parse_of_runAll`).
-/

namespace HostParsing.Host.Parser

open Bench (Mode)
open Session (Happens History Note inForce)

mutual

/-- The time limits that a call has set, by how it ended, in their order. -/
def Call.sets (call : Call) (reply : Reply) : List UInt64 :=
  match call, reply with
  | .setLimit micros, .done _ => [micros]
  | .alongside waiter beside, .done (.alongside outcome replies) =>
    waiter.sets outcome ++ setsAll beside replies
  | _, _ => []

/-- The time limits that were set by calls one after the other. -/
def setsAll (calls : List Call) (replies : List Reply) : List UInt64 :=
  match calls, replies with
  | call :: rest, reply :: replies => call.sets reply ++ setsAll rest replies
  | _, _ => []

end

/-- Whether a call never sets a time limit, and makes no calls beside. -/
def Call.silent : Call → Bool
  | .setLimit _ | .alongside _ _ => false
  | _ => true

/-- What is noted when a host sets a time limit. -/
def setNote (micros : UInt64) : Note := .set (some (micros.toNat * nanosPerMicro))

/-- What calls that set these time limits make of a bench at which nobody holds the
engine. -/
def Serves (b : Bench) (sets : List UInt64) (after : Bench) : Prop :=
  b.Resting →
    after.Resting ∧ after.session.limit = inForce b.session.limit (sets.map setNote)

variable {b after : Bench} {sets more : List UInt64} {others : Others}

theorem Serves.refl (b : Bench) : Serves b [] b := fun rests => ⟨rests, rfl⟩

theorem Serves.trans {last : Bench} (first : Serves b sets after) (rest : Serves after more last) :
    Serves b (sets ++ more) last := by
  intro rests
  obtain ⟨met, limit⟩ := first rests
  obtain ⟨rests', limit'⟩ := rest met
  refine ⟨rests', ?_⟩
  rw [limit', limit, List.map_append, Session.inForce_append]

/-- Whoever neither sets a time limit nor makes calls beside has set none. -/
theorem Call.sets_of_silent {call : Call} (silent : call.silent = true) (reply : Reply) :
    call.sets reply = [] := by
  unfold Call.sets
  split
  · cases silent
  · cases silent
  · rfl

/-- Whoever waits has set none. -/
theorem Call.sets_of_waited (call : Call) (others : Others) (b : Bench) (replies : List Reply)
    (waited : (call.run others b).2.2 = some replies) :
    call.sets (call.run others b).2.1 = [] := by
  refine Call.sets_of_silent ?_ _
  cases call with
  | setLimit micros =>
    rw [Call.run] at waited
    unfold changing at waited
    split at waited <;> cases waited
  | alongside waiter beside =>
    rw [Call.run] at waited
    split at waited <;> cases waited
  | _ => rfl

theorem Serves.silent (led : Serves b sets after) {call : Call} {reply : Reply}
    (silent : call.silent = true) : Serves b (sets ++ call.sets reply) after := by
  rwa [Call.sets_of_silent silent, List.append_nil]

/-- Events that neither set a time limit nor give the engine to anyone. -/
theorem Serves.of_history {events : List Session.Event} {s : Session}
    (history : History b.session events s)
    (quiet : ∀ event ∈ events, event.moves = false ∧ ∀ limit, event ≠ .limited limit) :
    Serves b [] { b with session := s } :=
  fun rests => ⟨rests.history history fun event member => (quiet event member).1,
    history.limit_eq fun event member => (quiet event member).2⟩

theorem Serves.of_happens {event : Session.Event} {s : Session}
    (step : Happens b.session event s) (stays : event.moves = false)
    (quiet : ∀ limit, event ≠ .limited limit) : Serves b [] { b with session := s } :=
  .of_history (.single step) fun _ member => List.mem_singleton.mp member ▸ ⟨stays, quiet⟩

/-- A change of the session other than that of its time limit. -/
theorem changing_serves {changed : Outcome Fault Session} {waited : List Reply → List UInt64}
    (step : ∀ s, changed = .done s → ∃ event, Happens b.session event s ∧
      event.moves = false ∧ ∀ limit, event ≠ .limited limit) :
    let ran := changing b changed
    Serves b (ran.2.2.elim [] waited) ran.1 := by
  cases e : changed with
  | done s =>
    obtain ⟨event, happens, stays, quiet⟩ := step s e
    exact .of_happens happens stays quiet
  | refused fault => exact .refl b
  | stuck => exact .refl b

theorem destroying_serves (b : Bench) (waited : List Reply → List UInt64) :
    Serves b ((destroying b).2.2.elim [] waited) (destroying b).1 := by
  obtain ⟨events, history, only⟩ := Session.history_of_destroy b.session
  refine .of_history history fun event member => ?_
  rcases only event member with rfl | rfl <;> exact ⟨rfl, nofun⟩

theorem setLimit_serves (b : Bench) (micros : UInt64) (waited : List Reply → List UInt64) :
    let ran := changing b
      (.ofExcept (b.session.setLimit (some (micros.toNat * nanosPerMicro))))
    Serves b (ran.2.2.elim [] waited ++ (Call.setLimit micros).sets ran.2.1) ran.1 := by
  cases done : b.session.setLimit (some (micros.toNat * nanosPerMicro)) with
  | error fault => exact .refl b
  | ok s =>
    refine fun rests => ⟨rests.step (Session.happens_of_setLimit done) rfl, ?_⟩
    unfold Session.setLimit at done
    split at done
    · cases done
    · cases done
      rfl

theorem cancel_serves (b : Bench) (number : Nat) :
    Serves b [] { b with session := (b.session.cancel number).2 } :=
  .of_happens (.cancelled number) rfl fun _ => nofun

theorem requestCancellation_serves (b : Bench) :
    Serves b [] { b with session := b.session.requestCancellation.2 } := by
  unfold Session.requestCancellation
  cases b.session.round with
  | some number => exact cancel_serves b number
  | none => exact .refl b

/-- A parse that meets another bench than it comes to waits for a cancelled round. -/
theorem met_cases {mode : Mode} {source : Bench.Source} (other : b.met mode source others ≠ b) :
    mode = .wholeRound ∧ b.met mode source others = (others b).1 ∧
      ∃ number, b.session.round = some number ∧ b.session.token number = .cancelled := by
  unfold Bench.met at other ⊢
  split at other
  · rename_i waits
    exact ⟨rfl, rfl, (Bench.enter_eq_waits_iff.mp waits).2⟩
  · exact absurd rfl other

section

variable {waited : List Reply → List UInt64}
  (friendly : ∀ b : Bench, Serves b (waited (others b).2) (others b).1)

include friendly

theorem met_serves (b : Bench) (mode : Mode) (source : Bench.Source) :
    Serves b ((bif b.awaits mode source then some (others b).2 else none).elim [] waited)
      (b.met mode source others) := by
  rw [Bench.met_eq]
  cases b.awaits mode source with
  | true => exact friendly b
  | false => exact .refl b

theorem parse_serves (b : Bench) (mode : Mode) (raw : UInt64) (old : Option Nat) :
    let ran := (Call.parse mode raw old).run others b
    Serves b (ran.2.2.elim [] waited) ran.1 := by
  have waits : ((Call.parse mode raw old).run others b).2.2 =
      bif b.awaits mode (.handle raw) then some (others b).2 else none := by
    rw [Call.run]
    exact Bench.parse_company
  intro ran rests
  obtain ⟨rests', limit⟩ := met_serves friendly b mode (.handle raw) rests
  have leaves := (run_parse rests (fun b rests => (friendly b rests).1) mode raw old).2
  refine ⟨leaves.rests, ?_⟩
  rw [leaves.limit, limit, ← waits]

theorem cancelAndWait_serves (b : Bench) :
    Serves b ((b.cancelAndWait others).2.2.elim [] waited) (b.cancelAndWait others).1 := by
  cases active : b.session.round with
  | none =>
    rw [Bench.cancelAndWait_of_idle active]
    exact .refl b
  | some number =>
    obtain ⟨left, told⟩ := Bench.cancelAndWait_of_active active others
    rw [left, told]
    exact (cancel_serves b number).trans (friendly _)

end

mutual

/-- A call sets the time limits that its answer tells, after those that the others set
while it waits. -/
theorem Call.run_serves (call : Call) (others : Others) (waited : List Reply → List UInt64)
    (friendly : ∀ b : Bench, Serves b (waited (others b).2) (others b).1) (b : Bench) :
    Serves b ((call.run others b).2.2.elim [] waited ++ call.sets (call.run others b).2.1)
      (call.run others b).1 := by
  cases call with
  | beginRound =>
    rw [Call.run]
    refine Serves.silent (changing_serves fun s e => ?_) rfl
    exact ⟨_, Session.happens_of_beginRound (Session.done_of_ofExcept e), rfl, fun _ => nofun⟩
  | endRound =>
    rw [Call.run]
    refine Serves.silent (changing_serves fun s e => ?_) rfl
    obtain ⟨number, ended⟩ := Session.happens_of_endRound (Session.done_of_ofExcept e)
    exact ⟨_, ended, rfl, fun _ => nofun⟩
  | reset =>
    rw [Call.run]
    refine Serves.silent (changing_serves fun s e => ?_) rfl
    exact ⟨_, Session.happens_of_reset e, rfl, fun _ => nofun⟩
  | destroy =>
    rw [Call.run]
    exact (destroying_serves b waited).silent rfl
  | setLimit micros =>
    rw [Call.run]
    exact setLimit_serves b micros waited
  | parse mode raw old => exact (parse_serves friendly b mode raw old).silent rfl
  | withEdit number edit =>
    rw [Call.run]
    cases b.trees[number]? with
    | some tree => exact fun rests => ⟨⟨rests.sound, rests.free, rests.none_locked⟩, rfl⟩
    | none => exact .refl b
  | requestCancellation =>
    rw [Call.run]
    exact requestCancellation_serves b
  | cancelAndWait =>
    rw [Call.run]
    exact (cancelAndWait_serves friendly b).silent rfl
  | limit =>
    rw [Call.run]
    exact .refl b
  | cache call =>
    rw [Call.run]
    cases call.run b.desk.registry with
    | ok done => exact fun rests => ⟨⟨rests.sound, rests.free, rests.none_locked⟩, rfl⟩
    | error refusal => exact .refl b
  | alongside waiter beside =>
    have led := waiter.run_serves _ _ (fun b => runAll_serves beside b) b
    have waits := waiter.sets_of_waited (fun b => runAll beside b) b
    rw [Call.run]
    generalize waiter.run (fun b => runAll beside b) b = ran at led waits
    obtain ⟨met, outcome, replies⟩ := ran
    cases replies with
    | some replies =>
      -- Who waits sets no time limit, so all are set by the others.
      show Serves b (waiter.sets outcome ++ setsAll beside replies) met
      have none : waiter.sets outcome = [] := waits replies rfl
      rw [none] at led ⊢
      rwa [List.append_nil] at led
    | none =>
      show Serves b (waiter.sets outcome ++ setsAll beside (runAll beside met).2) _
      exact led.trans (runAll_serves beside met)

theorem runAll_serves (calls : List Call) (b : Bench) :
    Serves b (setsAll calls (runAll calls b).2) (runAll calls b).1 := by
  match calls with
  | [] =>
    rw [runAll]
    exact .refl b
  | call :: rest =>
    have led := call.run_serves (fun b => (b, [])) (fun _ => []) (fun b => .refl b) b
    have led' := runAll_serves rest (call.run (fun b => (b, [])) b).1
    rw [runAll, setsAll]
    refine Serves.trans ?_ led'
    generalize call.run (fun b => (b, [])) b = ran at led
    obtain ⟨met, reply, replies⟩ := ran
    cases replies with
    | some _ => exact led
    | none => exact led

end

/-! ## Parses -/

theorem resting_of_runAll (calls : List Call) : (runAll calls start).1.Resting :=
  (runAll_serves calls start (Bench.resting_start none)).1

/-- A parse that is answered comes to a tree unless it runs in a round that is
cancelled. -/
theorem Ends.tree_iff {met : Bench} {raw : UInt64} {old : Option Nat} {mode : Mode}
    {tree : Option Tree} (ends : Ends b met raw old mode (.done (.tree tree))) :
    tree = none ↔ mode = .withinRound ∧
      ∃ number, met.session.round = some number ∧ met.session.token number = .cancelled := by
  cases ends with
  | parsed found active wanted =>
    refine ⟨nofun, ?_⟩
    rintro ⟨-, number, active', unwanted⟩
    rw [active, Option.some.injEq] at active'
    exact absurd unwanted (active' ▸ wanted)
  | cancelled found active cancelled => exact ⟨fun _ => ⟨rfl, _, active, cancelled⟩, fun _ => rfl⟩
  | whole found idle => exact ⟨nofun, nofun⟩

/-- The engine never gets an odd input. -/
theorem Ends.ne_odd {met : Bench} {raw : UInt64} {old : Option Nat} {mode : Mode} {reply : Reply}
    (ends : Ends b met raw old mode reply) (count : Nat) :
    reply ≠ .refused (.fault (.oddByteCount count)) := by
  rintro rfl
  cases ends with
  | unfound unfound => cases unfound

/-- Whatever a host has asked of its parser and its cache, a parse ends by what it
finds: no handle in the word, then no text behind the handle; a destroyed session, then
no round for a parse within one, or a round that is not cancelled for a parse of a whole
one. It comes to a tree unless it runs in a round that is cancelled, never finds its
input to be odd, and leaves the cache alone. A parse within the round leaves that as it
is; a parse of a whole round that is answered leaves none. Only a parse of a whole round
meets another bench than it comes to, if it waits for the end of a round that is
cancelled. -/
theorem parse_of_runAll (calls others : List Call) (mode : Mode) (raw : UInt64)
    (old : Option Nat) :
    let b := (runAll calls start).1
    let company : Others := fun b => runAll others b
    let met := b.met mode (.handle raw) company
    let ran := (Call.parse mode raw old).run company b
    Ends b met raw old mode ran.2.1 ∧
      (∀ tree, ran.2.1 = .done (.tree tree) → (tree = none ↔ mode = .withinRound ∧
        ∃ number, met.session.round = some number ∧ met.session.token number = .cancelled)) ∧
      (∀ count, ran.2.1 ≠ .refused (.fault (.oddByteCount count))) ∧
      ran.1.desk = met.desk ∧
      (mode = .withinRound → ran.1.session.phase = b.session.phase) ∧
      (mode = .wholeRound → ∀ answer, ran.2.1 = .done answer → ran.1.session.phase = .idle) ∧
      (met ≠ b → mode = .wholeRound ∧ met = (company b).1 ∧
        ∃ number, b.session.round = some number ∧ b.session.token number = .cancelled) := by
  intro b company met ran
  have friendly (b : Bench) (rests : b.Resting) : (company b).1.Resting :=
    (runAll_serves others b rests).1
  obtain ⟨ends, leaves⟩ := run_parse (resting_of_runAll calls) friendly mode raw old
  refine ⟨ends, fun tree answered => ?_, ends.ne_odd, leaves.desk, fun within => ?_, leaves.whole,
    met_cases⟩
  · exact Ends.tree_iff (answered ▸ ends)
  · subst within
    exact leaves.within rfl

/-- A parse waits for the end of a cancelled round, and reads what the others have
written meanwhile. -/
theorem parse_of_runAll_waits :
    let b := (runAll [.cache (.create "a"), .beginRound, .requestCancellation] start).1
    let others : List Call := [.cache (.request 1 (.append "b")), .endRound]
    let ran := (Call.parse .wholeRound 1 none).run (fun b => runAll others b) b
    ran.2.1 = .done (.tree (some (.fresh [0x61, 0, 0x62, 0]))) ∧
      ran.1.session.phase = .idle ∧ ran.1.desk = (runAll others b).1.desk := by
  obtain ⟨-, -, -, desk, -, idle, -⟩ := parse_of_runAll
    [.cache (.create "a"), .beginRound, .requestCancellation]
    [.cache (.request 1 (.append "b")), .endRound] .wholeRound 1 none
  exact ⟨by cbv, idle rfl _ (by cbv), desk⟩

end HostParsing.Host.Parser
