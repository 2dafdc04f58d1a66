import HostParsing.Proofs.Session.Alike
import HostParsing.Proofs.Session.Tally
/-!
# What parses hold

A parse holds the engine while that runs, and the buffer that it reads until it returns, and
a call that has destroyed the session is to take the engine away (`held`). When a call has
returned it has done with all that: what is held then is what was held before, by whoever
made the call from inside a parse (`Call.held_of_returned`). So between calls that have all
returned nobody holds the engine or a buffer, and nobody is to take the engine away
(`held_of_returned`). A call that waits for what its own parse holds keeps all that the
parse holds from being free again.
-/

namespace HostParsing.Session

variable {s t : Session} {events : List Event}

theorem History.running_eq (history : History s events t)
    (stays : ∀ event ∈ events, event.moves = false) : t.running = s.running := by
  induction history with
  | nil => rfl
  | next before step ih =>
    simp only [List.mem_append, List.mem_singleton] at stays
    exact (step.running_eq (stays _ (.inr rfl))).trans
      (ih fun event member => stays event (.inl member))

theorem running_leaveRound (s : Session) : s.leaveRound.running = s.running := by
  unfold leaveRound endRound
  cases s.round <;> rfl

/-- Whether the call that has destroyed the session is still to take the engine away. -/
def isLeaving (s : Session) : Bool := s.destroyed && s.leaving

theorem isLeaving_leaveRound (s : Session) : s.leaveRound.isLeaving = s.isLeaving := by
  unfold leaveRound endRound
  cases s.round <;> rfl

/-- Only the call that destroys a session is to take the engine away, and does. -/
theorem Happens.isLeaving_eq {event : Event} (step : Happens s event t)
    (other : event ≠ .destroyed ∧ event ≠ .released) : t.isLeaving = s.isLeaving := by
  cases step with
  | destroyed => exact absurd rfl other.1
  | released => exact absurd rfl other.2
  | _ => rfl

end HostParsing.Session

namespace HostParsing.Bench

/-- What calls hold until they return. -/
structure Held where
  /-- Whether a parse holds the engine. -/
  engine : Bool
  /-- Whether the call that has destroyed the session is to take the engine away. -/
  leaving : Bool
  /-- The buffers that parses hold. -/
  buffers : List BufferId
deriving DecidableEq

/-- What calls hold. -/
def held (b : Bench) : Held := ⟨b.session.running, b.session.isLeaving, b.locked⟩

/-- Nothing is held. -/
def Held.nothing : Held := ⟨false, false, []⟩

variable {ρ α β : Type} {b : Bench} {mode : Mode} {source : Source} {input : Input}
  {old : Option Nat} {act : Behaviour ρ}

theorem held_leaveRound (b : Bench) :
    ({ b with session := b.session.leaveRound } : Bench).held = b.held := by
  rw [held, b.session.running_leaveRound, b.session.isLeaving_leaveRound]
  rfl

theorem held_unlock {after : Bench} (same : after.held = (b.lock input).held) :
    (after.unlock input).held = b.held := by
  obtain ⟨running, leaving, locked⟩ := Held.mk.inj same
  have unlocked : (after.unlock input).locked = ((b.lock input).unlock input).locked :=
    congrArg (fun locked => input.buffer?.toList.foldl List.erase locked) locked
  rw [unlock_lock] at unlocked
  exact Held.mk.injEq .. ▸ ⟨running, leaving, unlocked⟩

/-- A buffer that is locked for a while is locked then as it was before. -/
theorem holding_held {doing : Bench → Bench × Outcome Fault β}
    (lawful : (doing (b.lock input)).2 ≠ .stuck →
      (doing (b.lock input)).1.held = (b.lock input).held)
    (returned : (b.holding input doing).2 ≠ .stuck) :
    (b.holding input doing).1.held = b.held := by
  cases locked : b.isLocked input with
  | true =>
    rw [holding_of_locked locked] at returned
    exact absurd rfl returned
  | false =>
    obtain ⟨outcome, after⟩ := holding_of_free locked doing
    rw [outcome] at returned
    rw [after, Outcome.isStuck_eq_false_iff.mpr returned]
    exact held_unlock (lawful returned)

section

variable (lawful : ∀ number limit (b : Bench), (act number limit b).2.1 ≠ .never →
  (act number limit b).1.held = b.held)

include lawful

theorem runEngine_held {number : Nat} {bytes : Bytes}
    (returned : (b.runEngine number bytes old act).2 ≠ .stuck) :
    (b.runEngine number bytes old act).1.held = b.held := by
  rcases handOver_cases b.session bytes with ⟨fault, refused⟩ | stuck | ⟨handed, given⟩
  · rw [runEngine_of_refused refused]
  · obtain ⟨asked, -, waits⟩ := runEngine_of_stuck stuck number old act
    exact absurd (congrArg Prod.snd waits) returned
  · have same := lawful number handed.limit { b with session := handed }
    rw [runEngine_of_handOver given] at returned ⊢
    generalize act number handed.limit { b with session := handed } = acted at returned same
    obtain ⟨after, verdict, report⟩ := acted
    obtain ⟨-, free, engine, -, rfl⟩ := Session.handOver_eq_done_iff.mp given
    have back (comes : verdict ≠ .never) :
        (⟨false, after.session.isLeaving, after.locked⟩ : Held) = b.held := by
      obtain ⟨-, leaving, locked⟩ := Held.mk.inj (same comes)
      rw [leaving, locked, held, free]
      rfl
    cases verdict with
    | never => exact absurd rfl returned
    | noTree => exact back nofun
    | tree => exact back nofun

theorem runRound_held (returned : (b.runRound input old act).2 ≠ .stuck) :
    (b.runRound input old act).1.held = b.held := by
  rw [runRound_eq] at returned ⊢
  rw [if_neg (Outcome.isStuck_eq_false_iff.mpr returned ▸ Bool.false_ne_true)]
  exact (held_leaveRound _).trans (holding_held (runEngine_held lawful) returned)

/-- When a parse has returned, it has given back what it held, and the rest is held as the
others leave it if the parse waits. -/
theorem parse_held {company : Company α}
    (friendly : b.awaits mode source = true → (company b).1.held = b.held)
    (returned : (b.parse mode source old act company).2.1 ≠ .stuck) :
    (b.parse mode source old act company).1.held = b.held := by
  cases mode with
  | withinRound =>
    simp only [parse, parseWithin] at returned ⊢
    cases settled : b.settle source with
    | error fault => rfl
    | ok input =>
      simp only [settled] at returned
      refine holding_held (fun returned => ?_) returned
      unfold runActive at returned ⊢
      cases active : (b.lock input).session.activeRound with
      | error fault => rfl
      | ok number =>
        simp only [active] at returned
        exact runEngine_held lawful returned
  | wholeRound =>
    have entered {met : Bench} {session : Session} {input : Input}
        (enters : met.session.enter = .entered session)
        (returned : (({ met with session } : Bench).runRound input old act).2 ≠ .stuck) :
        (({ met with session } : Bench).runRound input old act).1.held = met.held := by
      obtain ⟨-, -, rfl⟩ := enter_eq_entered_iff.mp enters
      exact runRound_held lawful returned
    simp only [parse, parseRound, awaits] at friendly returned ⊢
    cases settled : b.settle source with
    | error fault => rfl
    | ok input =>
      simp only [settled] at friendly returned ⊢
      cases entry : b.session.enter with
      | refused fault => rfl
      | entered session =>
        simp only [entry] at returned
        exact entered entry returned
      | waits =>
        simp only [entry] at friendly returned ⊢
        cases entry' : (company b).1.session.enter with
        | refused fault => exact friendly trivial
        | waits => exact friendly trivial
        | entered session =>
          simp only [entry'] at returned
          exact (entered entry' returned).trans (friendly trivial)

end

theorem cancelAndWait_held {company : Company α}
    (friendly : ∀ number, b.session.round = some number →
      (company { b with session := (b.session.cancel number).2 }).1.held = b.held) :
    (b.cancelAndWait company).1.held = b.held := by
  cases active : b.session.round with
  | none => rw [cancelAndWait_of_idle active]
  | some number =>
    rw [(cancelAndWait_of_active active company).1]
    exact friendly number active

end HostParsing.Bench

namespace HostParsing.Session

theorem changing_held {b : Bench} {changed : Outcome Fault Session} {answer : Session → Answer}
    (step : ∀ s, changed = .done s → ∃ event, Happens b.session event s ∧
      event.moves = false ∧ event ≠ .destroyed ∧ event ≠ .released) :
    (changing b changed answer).1.held = b.held := by
  cases e : changed with
  | done s =>
    obtain ⟨event, happens, stays, other⟩ := step s e
    show (⟨s.running, s.isLeaving, b.locked⟩ : Bench.Held) = b.held
    rw [happens.running_eq stays, happens.isLeaving_eq other]
    rfl
  | refused fault => rfl
  | stuck => rfl

/-- A call that has destroyed the session has taken the engine away by its return. -/
theorem destroying_held {b : Bench} (returned : (destroying b).2.1 ≠ .stuck) :
    (destroying b).1.held = b.held := by
  unfold destroying at returned ⊢
  obtain ⟨-, fault, e⟩ | ⟨idle, free, e⟩ | ⟨-, -, e⟩ := b.session.destroy_cases
  · rw [e]
  · rw [e]
    have before : b.session.isLeaving = false := by
      rw [isLeaving, (phase_eq_idle_iff.mp idle).1, Bool.false_and]
    show (⟨b.session.running, false, b.locked⟩ : Bench.Held) = b.held
    rw [Bench.held, before]
  · rw [e] at returned
    exact absurd rfl returned

/-- Calls that are made beside a call have given back what they held when all have returned. -/
theorem alongside_held {waiter : Call} {beside : List Call} {others : Others} {b : Bench}
    {phase : Phase}
    (waiting : ∀ phase,
      (Turn.mk (waiter.run (fun b => runAll beside b) b).2.1 phase).waits = false →
      (∀ met, waiter.awaits b = some met → (runAll beside met).1.held = met.held) →
      (waiter.run (fun b => runAll beside b) b).1.held = b.held)
    (meanwhile : ∀ b : Bench, waitsAny (runAll beside b).2 = false →
      (runAll beside b).1.held = b.held)
    (returned : (Turn.mk ((Call.alongside waiter beside).run others b).2.1 phase).waits = false) :
    ((Call.alongside waiter beside).run others b).1.held = b.held := by
  have asked := waiter.run_company (fun b => runAll beside b) b
  rw [Call.run] at returned ⊢
  generalize waiter.run (fun b => runAll beside b) b = ran at waiting asked returned
  obtain ⟨met, outcome, turns⟩ := ran
  cases turns with
  | some turns =>
    simp only [atOnce, Turn.waits, Bool.or_eq_false_iff] at returned
    refine waiting met.session.phase returned.1 fun found waits => meanwhile found ?_
    have told : turns = (runAll beside found).2 := by
      rw [waits] at asked
      exact Option.some.inj asked
    rw [← told]
    exact returned.2
  | none =>
    simp only [atOnce, Turn.waits, Bool.or_eq_false_iff] at returned
    refine (meanwhile met returned.2).trans
      (waiting met.session.phase returned.1 fun found waits => ?_)
    rw [waits] at asked
    cases asked

mutual

/-- A call that has returned leaves held what was held before, if the others do while it
waits. -/
theorem Call.held_of_returned (call : Call) {others : Others} (b : Bench) (phase : Phase)
    (returned : (Turn.mk (call.run others b).2.1 phase).waits = false)
    (friendly : ∀ met, call.awaits b = some met → (others met).1.held = met.held) :
    (call.run others b).1.held = b.held := by
  cases call with
  | isParsing | limit | engine => rfl
  | beginRound =>
    rw [Call.run]
    exact changing_held fun s e =>
      ⟨_, happens_of_beginRound (done_of_ofExcept e), rfl, nofun, nofun⟩
  | endRound =>
    rw [Call.run]
    exact changing_held fun s e =>
      let ⟨_, ended⟩ := happens_of_endRound (done_of_ofExcept e)
      ⟨_, ended, rfl, nofun, nofun⟩
  | setLimit limit =>
    rw [Call.run]
    exact changing_held fun s e =>
      ⟨_, happens_of_setLimit (done_of_ofExcept e), rfl, nofun, nofun⟩
  | reset =>
    rw [Call.run]
    exact changing_held fun s e => ⟨_, happens_of_reset e, rfl, nofun, nofun⟩
  | destroy =>
    rw [Call.run] at returned ⊢
    refine destroying_held fun stuck => ?_
    rw [stuck] at returned
    cases returned
  | parse mode source old script =>
    rw [Call.run] at returned ⊢
    refine Bench.parse_held (fun number limit b => runScript_held script number limit 0 [] b)
      (fun waits => friendly b ?_) fun stuck => ?_
    · rw [Call.awaits, waits, cond_true]
    · simp only [stuck, Outcome.map, Turn.waits] at returned
      cases returned
  | requestCancellation =>
    rw [Call.run]
    show ({ b with session := b.session.requestCancellation.2 } : Bench).held = b.held
    unfold requestCancellation
    cases b.session.round <;> rfl
  | cancelAndWait =>
    rw [Call.run]
    refine Bench.cancelAndWait_held fun number active => ?_
    exact friendly _ (by rw [Call.awaits, active, Option.map_some])
  | alongside waiter beside =>
    exact alongside_held (waiter.held_of_returned b) (fun met => runAll_held beside met) returned
  | token number cancel =>
    rw [Call.run]
    cases cancel <;> rfl
  | registry call =>
    rw [Call.run]
    split
    · rfl
    · cases call.run b.desk <;> rfl

theorem runScript_held (script : List Step) (number : Nat) (limit : Option Nat) (spent : Nat)
    (during : List Turn) (b : Bench)
    (comes : (runScript script number limit spent during b).2.1 ≠ .never) :
    (runScript script number limit spent during b).1.held = b.held := by
  match script with
  | [] => rw [runScript]
  | .poll :: rest =>
    rw [runScript] at comes ⊢
    split at comes
    · rename_i wanted
      rw [if_pos wanted]
      exact runScript_held rest number limit spent during b comes
    · rename_i unwanted
      rw [if_neg unwanted]
  | .spend nanos :: rest =>
    rw [runScript] at comes ⊢
    split at comes
    · rename_i reached
      rw [if_pos reached]
    · rename_i within
      rw [if_neg within]
      exact runScript_held rest number limit (spent + nanos) during b comes
  | .giveUp :: _ => rw [runScript]
  | .call call :: rest =>
    rw [runScript_call] at comes ⊢
    split at comes
    · exact absurd rfl comes
    · rename_i returned
      rw [if_neg returned]
      exact (runScript_held rest number limit spent _ _ comes).trans
        (call.held_of_returned b _ (Bool.eq_false_iff.mpr returned) fun _ _ => rfl)

theorem runAll_held (calls : List Call) (b : Bench)
    (returned : waitsAny (runAll calls b).2 = false) :
    (runAll calls b).1.held = b.held := by
  match calls with
  | [] => rw [runAll]
  | call :: rest =>
    rw [runAll, waitsAny, Bool.or_eq_false_iff] at returned
    rw [runAll]
    exact (runAll_held rest _ returned.2).trans
      (call.held_of_returned b _ returned.1 fun _ _ => rfl)

end

/-- Between calls that have all returned nobody holds anything. -/
theorem held_of_returned {limit : Option Nat} {calls : List Call}
    (returned : waitsAny (runAll calls (Bench.start limit)).2 = false) :
    (runAll calls (Bench.start limit)).1.held = .nothing :=
  runAll_held calls (Bench.start limit) returned

end HostParsing.Session
