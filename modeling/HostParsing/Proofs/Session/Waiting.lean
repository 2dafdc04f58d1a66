import HostParsing.Proofs.Registry.Kept
import HostParsing.Proofs.Session.Desk
import HostParsing.Proofs.Session.Held
/-!
# Parses that wait

A parse of a whole round that meets a cancelled round waits for its end. It has settled
by then which buffer it reads, and reads that when its own round has begun: so it gets
every edit that is put to the buffer meanwhile, by whomever, and none that is put to
another, whatever has become of the handle (`waiting_parse_reads_late`). Another parse may
hold that buffer or the engine when the round has begun, and the parse waits for it then;
what others have called meanwhile and is answered leaves neither held.

`Course` tells what is done at a bench, by what happens to the session and what is put
to the registry; every list of calls is such a course (`course_runAll`), and so is a
parse that comes to its end.
-/

namespace HostParsing.Session

variable {s t : Session} {event : Event} {before : List Event} {g k : Nat}

/-- When the active round has ended, the session lives and the next round has the number
after it. -/
theorem History.of_last_ended (history : History s (before ++ [.ended g]) t) (sound : s.Sound)
    (active : s.round = some g) (open_ : .ended g ∉ before) :
    t.destroyed = false ∧ t.round = none ∧ t.begun = g := by
  obtain ⟨met, first, step⟩ := history.of_append_singleton
  have sound' := first.sound sound
  have active' := first.round_of_not_ended active open_
  have alive : met.destroyed = false := sound'.alive_of_round active'
  cases step with
  | ended _ => exact ⟨alive, rfl, (sound'.round_last active').1.symm⟩

/-- A session is idle when the active round is left. -/
theorem phase_leaveRound (sound : s.Sound) (active : s.round = some k) :
    s.takeBack.leaveRound.phase = .idle := by
  have alive := sound.alive_of_round active
  simp only [phase_eq_idle_iff, leaveRound, endRound, takeBack, active]
  exact ⟨alive, trivial⟩

theorem runAll_append (calls more : List Call) (b : Bench) :
    (runAll (calls ++ more) b).1 = (runAll more (runAll calls b).1).1 := by
  induction calls generalizing b with
  | nil => rw [runAll, List.nil_append]
  | cons call calls ih =>
    rw [List.cons_append, runAll, runAll]
    exact ih _

end HostParsing.Session

namespace HostParsing.Bench

open Session (Event History deskCallsAll runAll waitsAny)

/-- What is done at a bench: what happens to the session, and what is put to the
registry. -/
structure Course (b : Bench) (events : List Event) (put : List Registry.Call) (after : Bench) :
    Prop where
  history : History b.session events after.session
  desk : after.desk = Registry.runAll b.desk put

variable {ρ α : Type} {b after : Bench} {events : List Event} {put : List Registry.Call}
  {source : Source} {input : Input} {company : Company α} {old : Option Nat} {act : Behaviour ρ}

/-- The course of a list of calls. -/
theorem course_runAll (calls : List Session.Call) (b : Bench) :
    ∃ events, b.Course events (deskCallsAll calls b) (runAll calls b).1 := by
  obtain ⟨events, history⟩ := Session.runAll_leads calls b
  exact ⟨events, history, Session.desk_of_runAll calls b⟩

theorem Course.reachable {limit : Option Nat} (reached : (start limit).Course events put b) :
    Registry.Reachable b.desk := by
  rw [reached.desk]
  exact Registry.Reachable.empty.runAll put

/-- Calls that leave the round active, and then its end. If they have all returned, they
hold nothing. -/
theorem course_endRound {g : Nat} (sound : b.session.Sound) (active : b.session.round = some g)
    {calls : List Session.Call} (open_ : (runAll calls b).1.session.round = some g) :
    (∃ before, .ended g ∉ before ∧
      b.Course (before ++ [.ended g]) (deskCallsAll calls b)
        (runAll (calls ++ [.endRound]) b).1) ∧
      (waitsAny (runAll calls b).2 = false →
        (runAll (calls ++ [.endRound]) b).1.held = b.held) := by
  obtain ⟨before, history, desk⟩ := course_runAll calls b
  have held := Session.runAll_held calls b
  have still := (history.round_iff_not_ended sound active).mp open_
  rw [Session.runAll_append]
  generalize (runAll calls b).1 = met at history desk open_ held
  have ended : (runAll [.endRound] met).1 =
      { met with session := { met.session.setToken g .expired with round := none } } := by
    simp only [runAll, Session.Call.run, Session.endRound, open_, Session.changing,
      Outcome.ofExcept_ok]
  rw [ended]
  exact ⟨⟨before, still, history.next (.ended open_), desk⟩, held⟩

/-! ## The parse that waits -/

/-- A parse that has waited comes to the engine in the round that it enters then, with what
there is to read by then, unless another parse holds its buffer. -/
theorem admission_of_waits {session : Session} (settled : b.settle source = .ok input)
    (waits : b.session.enter = .waits)
    (entered : (company b).1.session.enter = .entered session) :
    b.admission .wholeRound source company =
      ({ (company b).1 with session } : Bench).reserve session.begun input := by
  simp only [admission, settled, waits, entry, entered]

/-- A parse that has waited goes on in the round that it enters then. -/
theorem parse_of_waits {session : Session} (settled : b.settle source = .ok input)
    (waits : b.session.enter = .waits) (entered : (company b).1.session.enter = .entered session)
    (old : Option Nat) (act : Behaviour ρ) :
    b.parse .wholeRound source old act company =
      let ran := ({ (company b).1 with session } : Bench).runRound input old act
      (ran.1, ran.2, some (company b).2) := by
  simp only [parse, parseRound, settled, waits, entered]

/-- A parse in a round that has begun keeps its buffer locked while it waits for the engine. -/
theorem runRound_of_busy (busy : b.session.running = true) {id : BufferId}
    (unlocked : b.isLocked (.buffer id) = false) (old : Option Nat) (act : Behaviour ρ) :
    ∃ asked, b.session.ask (b.content id) = .ok asked ∧
      b.runRound (.buffer id) old act =
        ({ b.lock (.buffer id) with session := asked }, .stuck) := by
  have asks : b.session.ask (b.content id) = .ok _ :=
    Session.ask_eq_ok_iff.mpr ⟨b.even_content id, rfl⟩
  have stuck : b.session.handOver (b.content id) = .stuck := by
    rw [Session.handOver, asks, Outcome.ofExcept_ok, Outcome.bind_done,
      Session.engage_eq_stuck_iff]
    exact busy
  obtain ⟨asked, asks, waits⟩ :=
    runEngine_of_stuck (b := b.lock (.buffer id)) stuck b.session.begun old act
  refine ⟨asked, asks, ?_⟩
  have held : (b.holding (.buffer id) fun held =>
      held.runEngine b.session.begun (held.readInput (.buffer id)) old act) =
      ({ b.lock (.buffer id) with session := asked }, .stuck) := by
    rw [holding, if_neg (Bool.eq_false_iff.mp unlocked), readInput_lock,
      show b.readInput (.buffer id) = b.content id from rfl, waits]
  rw [runRound, held]

/-- A parse in a round that has begun gives its buffer to the engine, when nobody else
holds either, and the session is idle when it returns unless the engine's run ends the
round. -/
theorem runRound_of_buffer {number : Nat} (sound : b.session.Sound)
    (active : b.session.round = some number) (free : b.session.running = false) {id : BufferId}
    (unlocked : b.isLocked (.buffer id) = false) (old : Option Nat) (act : Behaviour ρ) :
    let ran := b.runRound (.buffer id) old act
    ∃ handed, b.session.handOver (b.content id) = .done handed ∧
      let acted := act number handed.limit { b.lock (.buffer id) with session := handed }
      (acted.2.1 = .never → ran.2 = .stuck) ∧
      (acted.2.1 ≠ .never →
        ran.2 = .done (if acted.2.1 = .tree then
          some (Tree.parse (old.bind (b.trees[·]?)) (b.content id)) else none, acted.2.2) ∧
        ∀ during, History handed during acted.1.session → .ended number ∉ during →
          ran.1.session.phase = .idle) := by
  intro ran
  have alive : b.session.destroyed = false := sound.alive_of_round active
  obtain ⟨engine, present, given⟩ := Session.exists_handOver_of_free sound alive free
    (b.even_content id)
  obtain ⟨last, -⟩ := sound.round_last active
  have whole := runEngine_of_handOver (b := b.lock (.buffer id)) given number old act
  obtain ⟨answered, -, left⟩ := runRound_of_free unlocked old act
  rw [← last] at answered left
  rw [show (b.lock (.buffer id)).runEngine number (b.readInput (.buffer id)) old act = _ from whole]
    at answered left
  have outcome := answered.trans outcome_conclude
  refine ⟨_, given, fun never => outcome.trans (if_pos never), fun comes => ?_⟩
  have outcome := outcome.trans (if_neg comes)
  refine ⟨outcome, fun during history open_ => ?_⟩
  have returned : ran.2.isStuck = false :=
    Outcome.isStuck_eq_false_iff.mpr (outcome ▸ (Outcome.stuck_ne_done _).symm)
  rw [← answered, show (b.runRound (.buffer id) old act).2.isStuck = false from returned,
    session_conclude, if_neg comes] at left
  have sound' := (Session.history_of_handOver given).sound sound
  rw [show ran.1.session = _ from left]
  exact Session.phase_leaveRound (history.sound sound')
    (history.round_of_not_ended active open_)

/-- A parse that meets a cancelled round settles at once which buffer it reads, and is
refused then if its handle does not resolve. Else it waits for the end of the round,
begins the next one, and gives the engine what the edits of its buffer have made of it
by then: those through handles that resolved to it and those of clients who kept it, even
after the handle was released, and no others. If another parse holds the buffer by then, or
the engine, the parse waits for that with its round begun. -/
theorem waiting_parse_reads_late {limit : Option Nat} {past : List Event}
    {made : List Registry.Call} {b : Bench} {g : Nat}
    (reached : (start limit).Course past made b) (active : b.session.round = some g)
    (cancelled : b.session.token g = .cancelled) :
    (∀ calls, (runAll calls b).1.session.round = some g →
      (∃ before, .ended g ∉ before ∧
        b.Course (before ++ [.ended g]) (deskCallsAll calls b)
          (runAll (calls ++ [.endRound]) b).1) ∧
      (waitsAny (runAll calls b).2 = false →
        (runAll (calls ++ [.endRound]) b).1.held = b.held)) ∧
    ∀ {ρ α : Type} (company : Company α) (before : List Event) (put : List Registry.Call),
      .ended g ∉ before → b.Course (before ++ [.ended g]) put (company b).1 →
      ∀ (raw : UInt64) (old : Option Nat) (act : Behaviour ρ),
        let met := (company b).1
        let ran := b.parse .wholeRound (.handle raw) old act company
        (∀ fault, b.desk.registry.resolveRaw raw = .error fault →
          ran = (b, .refused fault, none)) ∧
        ∀ id, b.desk.registry.resolveRaw raw = .ok id →
          let content := Buffer.runAll (b.desk.registry.buffer id) (Registry.editsIn b.desk id put)
          let entered : Bench := { met with session := met.session.install }
          let reading := entered.lock (.buffer id)
          met.desk.registry.buffer id = content ∧
          (∀ first word rest, put = first ++ .erase word :: rest →
            (Registry.runAll b.desk first).registry.resolveRaw word = .ok id →
              let released := Registry.runAll b.desk (first ++ [.erase word])
              (∀ h, met.desk.registry.lookup? h ≠ some id) ∧
                Registry.editsIn b.desk id put =
                  Registry.editsIn b.desk id first ++ Registry.keptCalls released id rest) ∧
          (met.isLocked (.buffer id) = true → ran = (entered, .stuck, some (company b).2)) ∧
          (met.isLocked (.buffer id) = false →
            b.admission .wholeRound (.handle raw) company =
              some ⟨g + 1, content.bytes, reading⟩ ∧
            (met.session.running = true → ∃ asked,
              reading.session.ask content.bytes = .ok asked ∧
                ran = ({ reading with session := asked }, .stuck, some (company b).2)) ∧
            (met.session.running = false → ∃ handed,
              reading.session.handOver content.bytes = .done handed ∧
              let acted := act (g + 1) handed.limit { reading with session := handed }
              (acted.2.1 = .never → ran.2 = (.stuck, some (company b).2)) ∧
              (acted.2.1 ≠ .never →
                ran.2 = (.done (if acted.2.1 = .tree then
                    some (Tree.parse (old.bind (met.trees[·]?)) content.bytes) else none,
                  acted.2.2), some (company b).2) ∧
                ∀ during, History handed during acted.1.session → .ended (g + 1) ∉ during →
                  ran.1.session.phase = .idle))) := by
  have sound : b.session.Sound := reached.history.sound (Session.sound_start limit)
  refine ⟨fun calls open_ => course_endRound sound active open_, ?_⟩
  intro ρ α company before put open_ course raw old act met ran
  refine ⟨fun fault stale => ?_, fun id resolved => ?_⟩
  · simp only [ran, parse, parseRound, settle_of_unresolved stale]
  intro content entered reading
  have reachable := reached.reachable
  have taken : id < b.desk.registry.store.size := by
    obtain ⟨h, -, found⟩ := Registry.exists_of_resolveRaw resolved
    exact reachable.sound.lookup?_lt found
  have read : met.desk.registry.buffer id = content := by
    rw [course.desk]
    exact Registry.buffer_of_runAll reachable.sound taken put
  have settled : b.settle (.handle raw) = .ok (.buffer id) := settle_of_resolved resolved
  -- The round is active and cancelled when the parse comes, and over when it goes on.
  have alive : b.session.destroyed = false := sound.alive_of_round active
  have waits : b.session.enter = .waits := enter_eq_waits_iff.mpr ⟨alive, g, active, cancelled⟩
  obtain ⟨alive', idle, begun⟩ := course.history.of_last_ended sound active open_
  have enters : met.session.enter = .entered entered.session :=
    enter_eq_entered_iff.mpr ⟨alive', idle, rfl⟩
  have number : entered.session.begun = g + 1 := congrArg (· + 1) begun
  have shown : entered.content id = content.bytes := congrArg Buffer.bytes read
  have whole : ran = _ := parse_of_waits settled waits enters old act
  refine ⟨read, fun first word rest split released => ?_, fun locked => ?_,
    fun unlocked => ⟨?_, fun busy => ?_, fun free => ?_⟩⟩
  · subst split
    obtain ⟨unseen, edits⟩ := Registry.editsIn_of_erase reachable.sound released rest
    refine ⟨?_, edits⟩
    rw [course.desk, show first ++ .erase word :: rest = (first ++ [.erase word]) ++ rest by simp,
      Registry.runAll_append]
    exact unseen
  · rw [whole]
    exact congrArg (fun ran => (ran.1, ran.2, some (company b).2))
      (runRound_of_locked (b := entered) locked old act)
  · rw [admission_of_waits settled waits enters, ← shown]
    exact reserve_eq_some_iff.mpr ⟨unlocked, by rw [number]; rfl⟩
  · obtain ⟨asked, asks, stuck⟩ := runRound_of_busy (b := entered) busy unlocked old act
    rw [shown] at asks
    refine ⟨asked, asks, ?_⟩
    rw [whole]
    exact congrArg (fun ran => (ran.1, ran.2, some (company b).2)) stuck
  · have sound' : entered.session.Sound := (course.history.sound sound).install alive' idle
    obtain ⟨handed, given, never, comes⟩ :=
      runRound_of_buffer sound' (congrArg some number) free unlocked old act
    rw [shown] at given comes
    refine ⟨handed, given, fun stuck => ?_, fun returns => ?_⟩
    · rw [whole]
      exact congrArg (·, some (company b).2) (never stuck)
    · obtain ⟨answered, left⟩ := comes returns
      rw [whole]
      exact ⟨congrArg (·, some (company b).2) answered, left⟩

/-- While a parse waits, its buffer is edited and released, another takes the slot, and a
client who kept the first one edits it once more. -/
theorem waiting_parse_reads_late_released :
    let made : List Session.Call :=
      [.registry (.create "a"), .registry (.keep 1), .beginRound, .requestCancellation]
    let calls : List Session.Call :=
      [.registry (.edit 1 (.append "b")), .registry (.erase 1), .registry (.create "x"),
        .registry (.edit 2 (.append "y")), .parse .withinRound (.handle 2) none [.poll],
        .registry (.editKept 0 (.append "c"))]
    let act : Behaviour Nat := fun number _ b => (b, .tree, number)
    let ran := (runAll made (start none)).1.parse .wholeRound (.handle 1) none act
      fun b => runAll (calls ++ [.endRound]) b
    ran.2.1 = .done (some (.fresh (Bytes.ofText "abc")), 2) ∧ ran.1.session.phase = .idle := by
  intro made calls act
  obtain ⟨past, reached⟩ := course_runAll made (start none)
  have active : (runAll made (start none)).1.session.round = some 1 := by decide
  have cancelled : (runAll made (start none)).1.session.token 1 = .cancelled := by decide
  have resolved : (runAll made (start none)).1.desk.registry.resolveRaw 1 = .ok 0 := by decide
  have open_ : (runAll calls (runAll made (start none)).1).1.session.round = some 1 := by decide
  have returned : waitsAny (runAll calls (runAll made (start none)).1).2 = false := by decide
  have nothing : (runAll made (start none)).1.held = .nothing := by decide
  have edited : Buffer.runAll ((runAll made (start none)).1.desk.registry.buffer 0)
      (Registry.editsIn (runAll made (start none)).1.desk 0
        (deskCallsAll calls (runAll made (start none)).1)) = Buffer.ofText "abc" := by decide
  -- All that is asked of the bench is known by now.
  generalize (runAll made (start none)).1 = b at *
  clear_value calls
  intro ran
  obtain ⟨lists, waits⟩ := waiting_parse_reads_late reached active cancelled
  obtain ⟨⟨before, fresh, course⟩, held⟩ := lists calls open_
  obtain ⟨free, -, unlocked⟩ := Held.mk.inj ((held returned).trans nothing)
  obtain ⟨-, reads⟩ := waits (fun b => runAll (calls ++ [.endRound]) b) before _ fresh course
    1 none act
  obtain ⟨-, -, -, given⟩ := reads 0 resolved
  obtain ⟨-, -, runs⟩ := given (by simp [isLocked, Input.buffer?, unlocked])
  obtain ⟨handed, -, -, comes⟩ := runs free
  obtain ⟨answered, idle⟩ := comes nofun
  rw [edited] at answered
  exact ⟨congrArg Prod.fst answered, idle [] .nil List.not_mem_nil⟩

end HostParsing.Bench
