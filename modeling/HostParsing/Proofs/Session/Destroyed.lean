import HostParsing.Proofs.Session.Held
/-!
# Destroyed sessions

A call to destroy a session marks it, if it is idle, and then waits for the engine to give
it up. From the mark on no event leads out of the destroyed session, and hardly any happens
to it (`History.of_destroyed`). Of the calls that it is asked for, those that need it alive
are refused before they look at anything else (`Barred`), and cancellations find nothing to
cancel. A parse that had asked for the engine before may still get it, until the session
has given it up.

A session that is idle is destroyed at once if nobody holds the engine, and between calls
that have all returned nobody does (`held_of_returned`). If a parse holds it, the call
waits and is answered as soon as the engine is free; it is not refused any more
(`History.giveUp_of_leaving`).
-/

namespace HostParsing.Session

variable {s t : Session} {event : Event} {events : List Event}

/-! ## What happens to a destroyed session -/

/-- No round begins, no limit is set, and of the tokens only those are cancelled that have
expired. -/
theorem Happens.of_destroyed (step : Happens s event t) (sound : s.Sound)
    (gone : s.destroyed = true) : t.destroyed = true ∧ t.limit = s.limit := by
  cases step with
  | began alive | limited alive => exact absurd (alive.symm.trans gone) Bool.false_ne_true
  | ended active => exact absurd ((sound.destroyed_idle gone).symm.trans active) nofun
  | destroyed => exact ⟨rfl, rfl⟩
  | _ => exact ⟨gone, rfl⟩

/-- A session that is destroyed stays so, with its time limit. -/
theorem History.of_destroyed (history : History s events t) (sound : s.Sound)
    (gone : s.destroyed = true) : t.destroyed = true ∧ t.limit = s.limit := by
  induction history with
  | nil => exact ⟨gone, rfl⟩
  | next before step ih =>
    obtain ⟨met, limit⟩ := ih
    obtain ⟨last, limit'⟩ := step.of_destroyed (before.sound sound) met
    exact ⟨last, limit'.trans limit⟩

/-- No token of a destroyed session can be cancelled. -/
theorem Sound.token_of_destroyed (sound : s.Sound) (gone : s.destroyed = true) {number : Nat}
    (issued : number ≠ 0) : s.token number = .expired := by
  refine sound.token_other issued fun active => ?_
  exact absurd ((sound.destroyed_idle gone).symm.trans active) nofun

/-! ## Destruction -/

theorem destroy_done_iff : s.destroy.2 = .done () ↔ s.phase = .idle ∧ s.running = false := by
  obtain ⟨busy, fault, e⟩ | ⟨idle, free, e⟩ | ⟨idle, held, e⟩ := s.destroy_cases
  · simp [e, busy]
  · simp [e, idle, free]
  · simp [e, held]

theorem destroy_refused_iff :
    (∃ fault, s.destroy.2 = .refused fault) ↔ s.phase ≠ .idle := by
  obtain ⟨busy, fault, e⟩ | ⟨idle, -, e⟩ | ⟨idle, -, e⟩ := s.destroy_cases
  · simp [e, busy]
  · simp [e, idle]
  · simp [e, idle]

/-- Who waits for the engine of a session that it has destroyed waits until it gets that,
whatever happens meanwhile, and gets it when nobody holds it. -/
theorem History.giveUp_of_leaving (history : History s events t) (leaving : s.leaving = true)
    (waits : .released ∉ events) :
    t.leaving = true ∧ ((∃ gone, t.giveUp = some gone) ↔ t.running = false) ∧
      ∀ gone, t.giveUp = some gone → gone.leaving = false ∧ gone.engine = none := by
  refine ⟨?_, ?_, fun gone gives => ?_⟩
  · induction history with
    | nil => exact leaving
    | next before step ih =>
      simp only [List.mem_append, List.mem_singleton, not_or] at waits
      cases step with
      | released => exact absurd rfl waits.2
      | destroyed => rfl
      | _ => exact ih waits.1
  · simp only [giveUp_eq_some_iff, exists_and_left, exists_eq', and_true]
  · obtain ⟨-, rfl⟩ := giveUp_eq_some_iff.mp gives
    exact ⟨rfl, rfl⟩

end HostParsing.Session

namespace HostParsing.Bench

variable {ρ α : Type} {b : Bench} {mode : Mode} {source : Source} {input : Input}

/-- A destroyed session refuses a parse whose input is settled, whatever the input is and
whoever the engine and the others are. Only a parse within a round waits for its buffer
first. -/
theorem parse_of_destroyed (gone : b.session.destroyed = true)
    (settled : b.settle source = .ok input) (old : Option Nat) (act : Behaviour ρ)
    (company : Company α) :
    b.parse mode source old act company =
      (b, if mode = .withinRound ∧ b.isLocked input = true then .stuck
        else .refused .sessionDestroyed, none) := by
  cases mode with
  | withinRound =>
    have inactive : b.session.activeRound = .error .sessionDestroyed := if_pos gone
    simp only [parse, parseWithin, settled, holding_runActive_of_error inactive, true_and]
  | wholeRound =>
    have closed : b.session.enter = .refused .sessionDestroyed := if_pos gone
    simp only [parse, parseRound, settled, closed]
    rfl

end HostParsing.Bench

namespace HostParsing.Session

open Bench (Leads)

/-- The calls that a destroyed session refuses, and for what. -/
inductive Barred (b : Bench) : Call → Fault → Prop
  | beginRound : Barred b .beginRound .sessionDestroyed
  /-- Its input is settled. Only a parse within a round waits for its buffer first. -/
  | parse {mode : Bench.Mode} {source : Bench.Source} {old : Option Nat} {script : List Step}
    {input : Bench.Input} (settled : b.settle source = .ok input)
    (open_ : mode = .withinRound → b.isLocked input ≠ true) :
    Barred b (.parse mode source old script) .sessionDestroyed
  | endRound : Barred b .endRound .noRoundToEnd
  | setLimit (limit : Option Nat) : Barred b (.setLimit limit) .sessionDestroyed
  | reset : Barred b .reset .sessionDestroyed
  | engine : Barred b .engine .sessionDestroyed
  | destroy : Barred b .destroy .sessionDestroyed

variable {b : Bench} {call : Call} {fault : Fault}

theorem Barred.kind (barred : Barred b call fault) : fault.kind = .illegalState := by
  cases barred <;> rfl

theorem Barred.run (barred : Barred b call fault) (sound : b.session.Sound)
    (gone : b.session.destroyed = true) (others : Others) :
    call.run others b = (b, .refused fault, none) := by
  have idle := sound.destroyed_idle gone
  cases barred with
  | beginRound =>
    have refused : b.session.beginRound = .error .sessionDestroyed := if_pos gone
    rw [Call.run, refused]
    rfl
  | parse settled open_ =>
    rw [Call.run, Bench.parse_of_destroyed gone settled,
      if_neg fun within => open_ within.1 within.2]
    rfl
  | endRound =>
    have refused : b.session.endRound = .error .noRoundToEnd := by rw [Session.endRound, idle]
    rw [Call.run, refused]
    rfl
  | setLimit limit =>
    have refused : b.session.setLimit limit = .error .sessionDestroyed := if_pos gone
    rw [Call.run, refused]
    rfl
  | reset =>
    have refused : b.session.reset = .refused .sessionDestroyed := if_pos gone
    rw [Call.run, refused]
    rfl
  | engine =>
    have refused : b.session.withEngine = .refused .sessionDestroyed := if_pos gone
    rw [Call.run, refused]
    rfl
  | destroy =>
    have refused : b.session.markDestroyed = .error .sessionDestroyed := if_pos gone
    rw [Call.run, destroying, Session.destroy, refused]
    rfl

/-- A destroyed session has nothing to cancel, and nobody waits for it. -/
theorem run_cancellation_of_destroyed (sound : b.session.Sound)
    (gone : b.session.destroyed = true) (others : Others) :
    Call.requestCancellation.run others b = (b, .done (.cancelled false), none) ∧
      Call.cancelAndWait.run others b = (b, .done (.cancelled false), none) := by
  have idle := sound.destroyed_idle gone
  constructor
  · simp only [Call.run, requestCancellation, idle, atOnce]
  · rw [Call.run, Bench.cancelAndWait_of_idle idle]
    rfl

/-- Whatever becomes of a session after a call has marked it as destroyed, it stays so and
keeps its time limit, and no token can be cancelled any more. Calls that need the session
alive, and parses by whatever engine, are refused for an illegal state, whoever else makes
calls; cancellations find nothing, and nobody waits. Once the call that destroyed the
session has succeeded, the engine is gone and never asked for anything again.

A call to destroy a session is refused exactly if the session is destroyed or in a round.
Else it marks the session at once and succeeds as soon as nobody holds the engine: at once
if nobody does, as between calls that have all returned, and else it waits for that and for
nothing else. -/
theorem destroyed_stays (limit : Option Nat) :
    (∀ b marked, (Bench.start limit).Leads b → b.session.markDestroyed = .ok marked →
      ∀ later : Bench, ({ b with session := marked } : Bench).Leads later →
        later.session.phase = .destroyed ∧ later.session.limit = b.session.limit ∧
        (∀ number, number ≠ 0 → later.session.token number = .expired) ∧
        (later.session.leaving = false → later.session.engine = none ∧
          ∀ events last, History later.session events last → asked events = 0) ∧
        (∀ call fault others, Barred later call fault →
          call.run others later = (later, .refused fault, none) ∧
            fault.kind = .illegalState ∧ fault.isRetryable = false) ∧
        (∀ (ρ α : Type) (act : Bench.Behaviour ρ) (company : Bench.Company α) mode source input old,
          later.settle source = .ok input → (mode = .withinRound → later.isLocked input ≠ true) →
            later.parse mode source old act company = (later, .refused .sessionDestroyed, none)) ∧
        ∀ others,
          Call.requestCancellation.run others later = (later, .done (.cancelled false), none) ∧
          Call.cancelAndWait.run others later = (later, .done (.cancelled false), none) ∧
          Call.limit.run others later = (later, .done (.limit b.session.limit), none)) ∧
    (∀ s : Session, ((∃ fault, s.destroy.2 = .refused fault) ↔ s.phase ≠ .idle) ∧
      (s.phase = .idle → ∃ marked, s.markDestroyed = .ok marked ∧
        (s.running = false → ∃ gone, marked.giveUp = some gone ∧ s.destroy = (gone, .done ())) ∧
        (s.running = true → s.destroy = (marked, .stuck)) ∧
        ∀ events t, History marked events t → .released ∉ events →
          t.leaving = true ∧ ((∃ gone, t.giveUp = some gone) ↔ t.running = false) ∧
            ∀ gone, t.giveUp = some gone → gone.leaving = false ∧ gone.engine = none)) ∧
    ∀ calls, let ran := runAll calls (Bench.start limit)
      waitsAny ran.2 = false →
        (ran.1.session.destroy.2 = .done () ↔ ran.1.session.phase = .idle) := by
  refine ⟨?_, fun s => ⟨destroy_refused_iff, fun idle => ?_⟩, ?_⟩
  · intro b marked reached marks later led
    have step := happens_of_markDestroyed marks
    obtain ⟨idle, rfl⟩ := markDestroyed_eq_ok_iff.mp marks
    obtain ⟨events, history⟩ := led
    have sound := step.sound reached.sound
    have sound' := history.sound sound
    obtain ⟨gone, kept⟩ := history.of_destroyed sound rfl
    refine ⟨phase_eq_destroyed_iff.mpr gone, kept, fun number => sound'.token_of_destroyed gone,
      fun left => ?_, fun call fault others barred => ?_,
      fun ρ α act company mode source input old settled open_ => ?_, fun others => ?_⟩
    · have none := sound'.engine_none_iff.mpr ⟨gone, left⟩
      exact ⟨none, fun events last history => (history.asked_of_gone none).1⟩
    · have retry : fault.isRetryable = false := by rw [Fault.isRetryable, barred.kind]; rfl
      exact ⟨barred.run sound' gone others, barred.kind, retry⟩
    · rw [Bench.parse_of_destroyed gone settled, if_neg fun within => open_ within.1 within.2]
    · obtain ⟨request, wait⟩ := run_cancellation_of_destroyed sound' gone others
      refine ⟨request, wait, ?_⟩
      rw [← kept]
      rfl
  · refine ⟨_, markDestroyed_eq_ok_iff.mpr ⟨idle, rfl⟩, fun free => ?_, fun held => ?_,
      fun events t history waits => history.giveUp_of_leaving rfl waits⟩
    · refine ⟨_, giveUp_eq_some_iff.mpr ⟨free, rfl⟩, ?_⟩
      obtain ⟨busy, -⟩ | ⟨-, -, e⟩ | ⟨-, held, -⟩ := s.destroy_cases
      · exact absurd idle busy
      · exact e
      · exact absurd held (Bool.eq_false_iff.mp free)
    · obtain ⟨busy, -⟩ | ⟨-, free, -⟩ | ⟨-, -, e⟩ := s.destroy_cases
      · exact absurd idle busy
      · exact absurd held (Bool.eq_false_iff.mp free)
      · exact e
  · intro calls ran returned
    have free : ran.1.session.running = false := congrArg Bench.Held.engine (held_of_returned returned)
    rw [destroy_done_iff, free]
    exact and_iff_left rfl

/-- A session is destroyed while a parse runs whose round is over. The call waits until the
engine is free, and afterwards the token of the round cannot be cancelled, the time limit
stays, and it does not count that an input is odd. -/
theorem destroyed_stays_odd :
    let entered := (runAll [.setLimit (some 7), .beginRound] (Bench.start none)).1
    let handed : Session := { entered.session with engine := some ⟨1, 0, some 7⟩, running := true }
    let b := (runAll [.endRound] { entered with session := handed }).1
    let marked : Session := { b.session with destroyed := true, leaving := true }
    let later := (runAll [.token 1 true, .setLimit none] { b with session := marked }).1
    b.session.destroy = (marked, .stuck) ∧ (∃ gone, later.session.takeBack.giveUp = some gone) ∧
      later.session.limit = some 7 ∧ later.session.token 1 = .expired ∧
      (Call.parse .wholeRound (.bytes [0x61]) none []).run alone later =
        (later, .refused .sessionDestroyed, none) := by
  intro entered handed b marked later
  have given : entered.session.handOver [0x61, 0] = .done handed := rfl
  have running : entered.Leads { entered with session := handed } :=
    ⟨_, history_of_handOver given⟩
  have reached : (Bench.start none).Leads b :=
    ((runAll_leads _ _).trans running).trans (runAll_leads [.endRound] _)
  obtain ⟨stays, destroys, -⟩ := destroyed_stays none
  obtain ⟨-, kept, expired, -, refused, -⟩ := stays b marked reached rfl later (runAll_leads _ _)
  obtain ⟨marked', marks, -, waits, pending⟩ := (destroys b.session).2 rfl
  obtain rfl : marked = marked' := Except.ok.inj marks
  have meanwhile : History marked [.cancelled 1 false, .tookBack] later.session.takeBack :=
    (History.single (.cancelled 1)).next .tookBack
  exact ⟨waits rfl, (pending _ _ meanwhile (by decide)).2.1.mpr rfl, kept, expired 1 (by decide),
    (refused _ _ alone (.parse rfl fun within => by cases within)).1⟩

end HostParsing.Session
