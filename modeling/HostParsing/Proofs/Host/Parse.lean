import HostParsing.Host.Parser
import HostParsing.Proofs.Session.Held
/-!
# The host's parses

The engine of a host's parser is done at once, so nobody holds it or a text when a call
comes (`Resting`). A parse is then told by what it meets: the word for the text first, the
session next, and last the token of the round (`Ends`). Whether it is answered or not, it
leaves all buffers alone. Buffers hold whole units, so the engine never finds an input to
be odd.
-/

namespace HostParsing.Bench

open Session (Event Happens History)

/-- A bench with a sound session at which no parse holds anything. -/
structure Resting (b : Bench) : Prop where
  sound : b.session.Sound
  free : b.session.running = false
  none_locked : b.locked = []

variable {b : Bench} {s : Session} {events : List Event} {id : BufferId}

theorem resting_start (limit : Option Nat) : (start limit).Resting :=
  ⟨Session.sound_start limit, rfl, rfl⟩

namespace Resting

theorem unlocked (rests : b.Resting) (input : Input) : b.isLocked input = false := by
  cases input with
  | bytes input => rfl
  | buffer id =>
    show b.locked.contains id = false
    rw [rests.none_locked]
    rfl

/-- Only a parse that is given the engine holds it. -/
theorem history (rests : b.Resting) (history : History b.session events s)
    (stays : ∀ event ∈ events, event.moves = false) : ({ b with session := s } : Bench).Resting :=
  ⟨history.sound rests.sound, (history.running_eq stays).trans rests.free, rests.none_locked⟩

theorem step {event : Event} (rests : b.Resting) (step : Happens b.session event s)
    (stays : event.moves = false) : ({ b with session := s } : Bench).Resting :=
  rests.history (.single step) fun _ member => List.mem_singleton.mp member ▸ stays

theorem leaveRound (rests : b.Resting) :
    ({ b with session := b.session.leaveRound } : Bench).Resting := by
  rw [Session.leaveRound, Session.endRound]
  cases active : b.session.round with
  | none => exact rests
  | some number => exact rests.step (.ended active) rfl

end Resting

/-- The tree that a parse of a buffer comes to. -/
def treeOf (b : Bench) (id : BufferId) (old : Option Nat) : Tree :=
  Tree.parse (old.bind (b.trees[·]?)) (b.content id)

/-- The engine is done at once with a buffer, which is free again then: there is a tree
unless the round is cancelled. -/
theorem Resting.runEngine (rests : b.Resting) (alive : b.session.destroyed = false)
    (number : Nat) (id : BufferId) (old : Option Nat) :
    let tree := if b.isWanted number then some (b.treeOf id old) else none
    ∃ engine : Engine,
      let after : Bench := { b with
        session := { b.session with engine := some engine }
        trees := tree.elim b.trees b.trees.push }
      after.Resting ∧ (b.holding (.buffer id) fun held =>
        held.runEngine number (held.readInput (.buffer id)) old atOnce) =
          (after, .done (tree, ())) := by
  obtain ⟨engine, present, given⟩ := Session.exists_handOver_of_free rests.sound alive rests.free
    (b.even_content id)
  have ran := runEngine_of_handOver (b := b.lock (.buffer id)) given number old atOnce
  generalize asks : ({ engine with parses := engine.parses + 1, limit := b.session.limit } : Engine) =
    asked at given ran
  refine ⟨asked, ⟨rests.sound.rearmed present asked _, rests.free, rests.none_locked⟩, ?_⟩
  have locked : (id :: b.locked).erase id = b.locked := List.erase_cons_head id b.locked
  have back : ({ b.session with engine := some asked, running := false } : Session) =
      { b.session with engine := some asked } :=
    congrArg (fun running => { b.session with engine := some asked, running }) rests.free.symm
  have verdict : ({ b.lock (.buffer id) with session :=
      { b.session with engine := some asked, running := true } } : Bench).verdict number =
      if b.isWanted number then .tree else .noTree := rfl
  rw [holding, if_neg (Bool.eq_false_iff.mp (rests.unlocked (.buffer id))), readInput_lock,
    show b.readInput (.buffer id) = b.content id from rfl, ran, atOnce, verdict]
  cases b.isWanted number <;>
    simp [conclude, unlock, lock, Session.takeBack, Input.buffer?, locked, back, treeOf]

end HostParsing.Bench

namespace HostParsing.Host.Parser

open Bench (Mode Resting)

/-- Why a word names no text of the cache. -/
inductive Unfound (r : Registry) (raw : UInt64) : Fault → Prop
  | notAHandle (unpacked : Handle.ofRaw? raw = none) : Unfound r raw (.notAHandle raw)
  | stale {h : Handle} (packed : Handle.ofRaw? raw = some h) (stale : r.contains h = false) :
    Unfound r raw (.staleHandle h)

/-- The word packs a handle that resolves to the buffer at a place. -/
inductive Found (r : Registry) (raw : UInt64) : BufferId → Prop
  | mk {h : Handle} {id : BufferId} (packed : Handle.ofRaw? raw = some h)
    (held : r.lookup? h = some id) : Found r raw id

/-- How a parse ends: by what it finds behind the word when it comes, and by the bench
that it meets, which is another one if it has to wait. -/
inductive Ends (b met : Bench) (raw : UInt64) (old : Option Nat) : Mode → Reply → Prop
  | unfound {mode : Mode} {fault : Fault} (unfound : Unfound b.desk.registry raw fault) :
    Ends b met raw old mode (.refused (.fault fault))
  | destroyed {mode : Mode} {id : BufferId} (found : Found b.desk.registry raw id)
    (gone : met.session.phase = .destroyed) :
    Ends b met raw old mode (.refused (.fault .sessionDestroyed))
  | outside {id : BufferId} (found : Found b.desk.registry raw id)
    (idle : met.session.phase = .idle) :
    Ends b met raw old .withinRound (.refused (.fault .noRound))
  | parsed {id : BufferId} {number : Nat} (found : Found b.desk.registry raw id)
    (active : met.session.round = some number) (wanted : met.session.token number ≠ .cancelled) :
    Ends b met raw old .withinRound (.done (.tree (some (met.treeOf id old))))
  | cancelled {id : BufferId} {number : Nat} (found : Found b.desk.registry raw id)
    (active : met.session.round = some number) (cancelled : met.session.token number = .cancelled) :
    Ends b met raw old .withinRound (.done (.tree none))
  | whole {id : BufferId} (found : Found b.desk.registry raw id)
    (idle : met.session.phase = .idle) :
    Ends b met raw old .wholeRound (.done (.tree (some (met.treeOf id old))))
  | busy {id : BufferId} {number : Nat} (found : Found b.desk.registry raw id)
    (active : met.session.round = some number) (wanted : met.session.token number ≠ .cancelled) :
    Ends b met raw old .wholeRound (.refused (.fault .parseInProgress))
  /-- Nobody has ended the round that the parse waits for. -/
  | stuck {id : BufferId} {number : Nat} (found : Found b.desk.registry raw id)
    (active : met.session.round = some number) (cancelled : met.session.token number = .cancelled) :
    Ends b met raw old .wholeRound .stuck

/-- What a parse leaves of the bench that it meets. -/
structure Leaves (met : Bench) (mode : Mode) (reply : Reply) (after : Bench) : Prop where
  desk : after.desk = met.desk
  limit : after.session.limit = met.session.limit
  rests : after.Resting
  within : mode = .withinRound → after.session.phase = met.session.phase
  /-- A parse that was answered has ended the round that it began. -/
  whole : mode = .wholeRound → ∀ answer, reply = .done answer → after.session.phase = .idle

/-- How the host is told the outcome of a parse. -/
def replyOf (outcome : Outcome Fault (Option Tree × Unit)) : Reply :=
  (outcome.map fun (tree, _) => .tree tree).mapRefused .fault

variable {b met : Bench} {raw : UInt64} {old : Option Nat} {mode : Mode} {reply : Reply}
  {others : Others}

theorem Leaves.refl (rests : met.Resting) (unanswered : ∀ answer, reply ≠ .done answer) :
    Leaves met mode reply met :=
  ⟨rfl, rfl, rests, fun _ => rfl, fun _ answer answered => absurd answered (unanswered answer)⟩

theorem Leaves.refused (rests : met.Resting) (refusal : Refusal) :
    Leaves met mode (.refused refusal) met :=
  .refl rests (Outcome.refused_ne_done refusal)

theorem resolveRaw_cases (r : Registry) (raw : UInt64) :
    (∃ fault, r.resolveRaw raw = .error fault ∧ Unfound r raw fault) ∨
      ∃ id, r.resolveRaw raw = .ok id ∧ Found r raw id := by
  simp only [Registry.resolveRaw, Registry.handleOfRaw]
  cases packed : Handle.ofRaw? raw with
  | none => exact .inl ⟨_, rfl, .notAHandle packed⟩
  | some h =>
    show (∃ fault, r.resolve h = .error fault ∧ _) ∨ ∃ id, r.resolve h = .ok id ∧ _
    rw [Registry.resolve]
    cases held : r.lookup? h with
    | none => exact .inl ⟨_, rfl, .stale packed (by rw [Registry.contains, held]; rfl)⟩
    | some id => exact .inr ⟨id, rfl, .mk packed held⟩

/-- A parse within the active round. -/
theorem parse_within (rests : b.Resting) (raw : UInt64) (old : Option Nat) :
    let ran := b.parseWithin (.handle raw) old Bench.atOnce
    Ends b b raw old .withinRound (replyOf ran.2) ∧
      Leaves b .withinRound (replyOf ran.2) ran.1 := by
  rcases resolveRaw_cases b.desk.registry raw with ⟨fault, unresolved, unfound⟩ | ⟨id, resolved, found⟩
  · simp only [Bench.parseWithin, Bench.settle_of_unresolved unresolved]
    exact ⟨.unfound unfound, .refused rests _⟩
  · simp only [Bench.parseWithin, Bench.settle_of_resolved resolved]
    have refused {fault : Fault} (inactive : b.session.activeRound = .error fault) :
        (b.holding (.buffer id) fun held => held.runActive (.buffer id) old Bench.atOnce) = _ :=
      Bench.holding_runActive_of_error inactive old Bench.atOnce
    rw [rests.unlocked] at refused
    cases gone : b.session.destroyed with
    | true =>
      rw [refused (if_pos gone)]
      exact ⟨.destroyed found (Session.phase_eq_destroyed_iff.mpr gone), .refused rests _⟩
    | false =>
      cases active : b.session.round with
      | none =>
        have inactive : b.session.activeRound = .error .noRound := by
          simp only [Session.activeRound, gone, active, Bool.false_eq_true, if_false]
        rw [refused inactive]
        exact ⟨.outside found (Session.phase_eq_idle_iff.mpr ⟨gone, active⟩), .refused rests _⟩
      | some number =>
        have within : b.session.activeRound = .ok number := by
          simp only [Session.activeRound, gone, active, Bool.false_eq_true, if_false]
        obtain ⟨engine, rests', ran⟩ := rests.runEngine gone number id old
        rw [Bench.holding_runActive within, ran]
        refine ⟨?_, rfl, rfl, rests', fun _ => rfl, fun whole => by cases whole⟩
        by_cases cancelled : b.session.token number = .cancelled
        · have unwanted : b.isWanted number = false := by rw [Bench.isWanted, cancelled]; rfl
          rw [unwanted]
          exact .cancelled found active cancelled
        · have wanted : b.isWanted number = true := decide_eq_true cancelled
          rw [wanted]
          exact .parsed found active cancelled

/-- A parse in a round of its own, which is over when it returns. -/
theorem runRound_atOnce {session : Session} (rests : met.Resting)
    (entered : met.session.enter = .entered session) (id : BufferId) (old : Option Nat) :
    let ran := Bench.runRound { met with session } (.buffer id) old Bench.atOnce
    replyOf ran.2 = .done (.tree (some (met.treeOf id old))) ∧
      Leaves met .wholeRound (replyOf ran.2) ran.1 := by
  obtain ⟨alive, idle, rfl⟩ := Bench.enter_eq_entered_iff.mp entered
  have began : Session.Happens met.session (.began (met.session.begun + 1)) met.session.install :=
    .began alive idle
  let fresh : Bench := { met with session := met.session.install }
  have rests' : fresh.Resting := rests.step began rfl
  have wanted : fresh.isWanted (met.session.begun + 1) = true := by
    refine decide_eq_true ?_
    rw [began.token_of_began rests.sound]
    decide
  obtain ⟨engine, left, ran⟩ := rests'.runEngine alive (met.session.begun + 1) id old
  rw [wanted] at ran left
  show replyOf (fresh.runRound (.buffer id) old Bench.atOnce).2 = _ ∧
    Leaves met .wholeRound (replyOf (fresh.runRound (.buffer id) old Bench.atOnce).2)
      (fresh.runRound (.buffer id) old Bench.atOnce).1
  rw [Bench.runRound_of_done ran]
  exact ⟨rfl, rfl, rfl, left.leaveRound, nofun,
    fun _ _ _ => Session.phase_eq_idle_iff.mpr ⟨alive, rfl⟩⟩

theorem ends_of_refused {id : BufferId} {fault : Fault}
    (found : Found b.desk.registry raw id) (refused : met.session.enter = .refused fault) :
    Ends b met raw old .wholeRound (.refused (.fault fault)) := by
  obtain ⟨gone, rfl⟩ | ⟨number, active, wanted, rfl⟩ := Bench.enter_refused_cases refused
  · exact .destroyed found (Session.phase_eq_destroyed_iff.mpr gone)
  · exact .busy found active wanted

theorem ends_of_waits {id : BufferId} (found : Found b.desk.registry raw id)
    (waits : met.session.enter = .waits) : Ends b met raw old .wholeRound .stuck := by
  obtain ⟨-, number, active, cancelled⟩ := Bench.enter_eq_waits_iff.mp waits
  exact .stuck found active cancelled

theorem ends_of_entered {id : BufferId} {session : Session} (rests : met.Resting)
    (found : Found b.desk.registry raw id) (entered : met.session.enter = .entered session) :
    let ran := Bench.runRound { met with session } (.buffer id) old Bench.atOnce
    Ends b met raw old .wholeRound (replyOf ran.2) ∧
      Leaves met .wholeRound (replyOf ran.2) ran.1 := by
  obtain ⟨answered, leaves⟩ := runRound_atOnce rests entered id old
  obtain ⟨alive, idle, -⟩ := Bench.enter_eq_entered_iff.mp entered
  refine ⟨?_, leaves⟩
  rw [answered]
  exact .whole found (Session.phase_eq_idle_iff.mpr ⟨alive, idle⟩)

/-- A parse of a whole round, which waits if it meets a round that is cancelled. -/
theorem parse_whole (rests : b.Resting)
    (friendly : ∀ b : Bench, b.Resting → (others b).1.Resting)
    (raw : UInt64) (old : Option Nat) :
    let met := b.met .wholeRound (.handle raw) others
    let ran := b.parseRound (.handle raw) old Bench.atOnce others
    Ends b met raw old .wholeRound (replyOf ran.2.1) ∧
      Leaves met .wholeRound (replyOf ran.2.1) ran.1 := by
  rcases resolveRaw_cases b.desk.registry raw with ⟨fault, unresolved, unfound⟩ | ⟨id, resolved, found⟩
  · simp only [Bench.met, Bench.parseRound, Bench.settle_of_unresolved unresolved]
    exact ⟨.unfound unfound, .refused rests _⟩
  · simp only [Bench.met, Bench.parseRound, Bench.settle_of_resolved resolved]
    cases entry : b.session.enter with
    | refused fault => exact ⟨ends_of_refused found entry, .refused rests _⟩
    | entered session => exact ends_of_entered rests found entry
    | waits =>
      have waited := friendly b rests
      simp only
      cases entry' : (others b).1.session.enter with
      | refused fault => exact ⟨ends_of_refused found entry', .refused waited _⟩
      | entered session => exact ends_of_entered waited found entry'
      | waits => exact ⟨ends_of_waits found entry', .refl waited Outcome.stuck_ne_done⟩

/-- A parse of a text in the cache, in either mode. -/
theorem run_parse (rests : b.Resting)
    (friendly : ∀ b : Bench, b.Resting → (others b).1.Resting)
    (mode : Mode) (raw : UInt64) (old : Option Nat) :
    let met := b.met mode (.handle raw) others
    let ran := (Call.parse mode raw old).run others b
    Ends b met raw old mode ran.2.1 ∧ Leaves met mode ran.2.1 ran.1 := by
  rw [Call.run]
  cases mode with
  | withinRound => exact parse_within rests raw old
  | wholeRound => exact parse_whole rests friendly raw old

end HostParsing.Host.Parser
