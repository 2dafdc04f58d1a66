import HostParsing.Proofs.Session.Destroyed
/-!
# Which calls reach the engine

The engine is asked for a parse exactly by the parses that are answered, with a
tree or without, and for a reset exactly by the resets that are answered
(`engine_of_runAll`). All refusals come before the engine is asked; `Unfit` lists what a
parse is refused for. Only a parse whose engine waits for what the parse itself holds has
asked the engine and is not answered, and it keeps the engine.
-/

namespace HostParsing.Session

theorem engine_leaveRound (s : Session) : s.leaveRound.engine = s.engine := by
  unfold leaveRound endRound
  cases s.round <;> rfl

end HostParsing.Session

namespace HostParsing.Bench

open Session (alone)

/-- Whether a call was refused or still waits. -/
def Unanswered {β : Type} (outcome : Outcome Fault β) : Prop := ∀ answer, outcome ≠ .done answer

/-- What keeps a parse from the engine. -/
inductive Unfit (b : Bench) : Mode → Source → Prop
  | destroyed {mode : Mode} {source : Source} (gone : b.session.destroyed = true) :
    Unfit b mode source
  | outside {source : Source} (idle : b.session.round = none) : Unfit b .withinRound source
  | busy {source : Source} {number : Nat} (active : b.session.round = some number)
    (wanted : b.isWanted number = true) : Unfit b .wholeRound source
  | odd {mode : Mode} {input : Bytes} (odd : input.length % 2 = 1) : Unfit b mode (.bytes input)
  | stale {mode : Mode} {raw : UInt64} {fault : Fault}
    (stale : b.desk.registry.resolveRaw raw = .error fault) : Unfit b mode (.handle raw)

variable {ρ α : Type} {b : Bench} {act : Behaviour ρ} {mode : Mode} {source : Source}
  {company : Company α} {old : Option Nat} {a : Admission}

theorem Unanswered.refused {β : Type} (fault : Fault) :
    Unanswered (.refused fault : Outcome Fault β) := by
  intro answer answered
  cases answered

theorem Unanswered.stuck {β : Type} : Unanswered (.stuck : Outcome Fault β) := by
  intro answer answered
  cases answered

theorem Unanswered.of_map {β γ : Type} {f : β → γ} {outcome : Outcome Fault β}
    (unanswered : Unanswered (outcome.map f)) : Unanswered outcome := by
  rintro answer rfl
  exact unanswered _ rfl

theorem Unanswered.map {β γ : Type} {outcome : Outcome Fault β} (unanswered : Unanswered outcome)
    (f : β → γ) : Unanswered (outcome.map f) := by
  cases outcome with
  | done answer => exact absurd rfl (unanswered answer)
  | refused fault => exact .refused fault
  | stuck => exact .stuck

/-! ## Parses that are not answered -/

theorem runEngine_of_unanswered {number : Nat} {input : Bytes}
    (lawful : ∀ number limit (b : Bench), b.session.running = true →
      (act number limit b).1.session.running = true)
    (unanswered : Unanswered (b.runEngine number input old act).2)
    (stays : (b.runEngine number input old act).1.session.running = b.session.running) :
    (b.runEngine number input old act).1.session.engine = b.session.engine := by
  rcases handOver_cases b.session input with ⟨fault, refused⟩ | stuck | ⟨handed, given⟩
  · rw [runEngine_of_refused refused]
  · obtain ⟨asked, asks, waits⟩ := runEngine_of_stuck stuck number old act
    obtain ⟨-, rfl⟩ := Session.ask_eq_ok_iff.mp asks
    rw [waits]
  -- The engine has come to nothing, so the parse keeps it.
  · obtain ⟨-, free, engine, -, e⟩ := Session.handOver_eq_done_iff.mp given
    have held := lawful number handed.limit { b with session := handed } (by rw [← e])
    rw [runEngine_of_handOver given, outcome_conclude] at unanswered
    rw [runEngine_of_handOver given, session_conclude] at stays
    split at unanswered
    · rename_i never
      rw [if_pos never, held, free] at stays
      cases stays
    · exact absurd rfl (unanswered _)

/-- A parse that is not answered leaves the engine as it was, unless it keeps it. -/
theorem engine_of_parse_unanswered (leaves : ∀ b : Bench, (company b).1 = b)
    (lawful : ∀ number limit (b : Bench), b.session.running = true →
      (act number limit b).1.session.running = true)
    (unanswered : Unanswered (b.parse mode source old act company).2.1)
    (stays : (b.parse mode source old act company).1.session.running = b.session.running) :
    (b.parse mode source old act company).1.session.engine = b.session.engine := by
  have met (f : Session → Option Engine) : f (b.met mode source company).session = f b.session :=
    met_keeps f (fun b => by rw [leaves b]) b mode source
  cases admitted : b.admission mode source company with
  | none =>
    rw [not_admitted_keeps (·.engine) (fun _ => rfl) admitted]
    exact met (·.engine)
  | some a =>
    have entered : a.bench.session.running = b.session.running :=
      (admission_keeps (·.running) (fun _ => rfl) admitted).trans
        (met_keeps (·.running) (fun b => by rw [leaves b]) b mode source)
    rw [outcome_of_admitted admitted] at unanswered
    rw [parse_keeps (·.running) Session.running_leaveRound admitted, ← entered] at stays
    rw [parse_keeps (·.engine) Session.engine_leaveRound admitted,
      runEngine_of_unanswered lawful unanswered stays]
    exact (admission_keeps (·.engine) (fun _ => rfl) admitted).trans (met (·.engine))

/-! ## Unfit parses -/

theorem admission_of_unsettled {fault : Fault} (unsettled : b.settle source = .error fault) :
    b.admission mode source company = none := by
  simp only [admission, unsettled]

theorem admission_of_inactive {fault : Fault} (inactive : b.session.activeRound = .error fault) :
    b.admission .withinRound source company = none := by
  simp only [admission, inactive]
  cases b.settle source <;> rfl

theorem admission_of_closed {fault : Fault} (closed : b.session.enter = .refused fault) :
    b.admission .wholeRound source company = none := by
  simp only [admission, entry, closed]
  cases b.settle source <;> rfl

/-- What is given as bytes is read as it is. -/
theorem admission_bytes {input : Bytes}
    (admitted : b.admission mode (.bytes input) company = some a) : a.input = input := by
  cases mode with
  | withinRound =>
    obtain ⟨_, settled, -, -, e⟩ := admission_withinRound admitted
    cases settled
    rw [e]
    rfl
  | wholeRound =>
    obtain ⟨_, settled, ⟨-, admits⟩ | ⟨-, admits⟩⟩ := admission_wholeRound admitted
    · cases settled
      rw [(entry_spec admits).2.2]
      rfl
    · cases settled
      rw [(entry_spec admits).2.2]
      rfl

/-- An unfit parse that is admitted is so with an input that is not whole. -/
theorem Unfit.odd_of_admitted (unfit : b.Unfit mode source)
    (admitted : b.admission mode source company = some a) : a.input.length % 2 = 1 := by
  cases unfit with
  | destroyed gone =>
    cases mode with
    | withinRound =>
      have inactive : b.session.activeRound = .error .sessionDestroyed := if_pos gone
      rw [admission_of_inactive inactive] at admitted
      cases admitted
    | wholeRound =>
      have closed : b.session.enter = .refused .sessionDestroyed := if_pos gone
      rw [admission_of_closed closed] at admitted
      cases admitted
  | outside idle =>
    have inactive : ∃ fault, b.session.activeRound = .error fault := by
      simp only [Session.activeRound, idle]
      split <;> exact ⟨_, rfl⟩
    obtain ⟨fault, inactive⟩ := inactive
    rw [admission_of_inactive inactive] at admitted
    cases admitted
  | busy active wanted =>
    have uncancelled : b.session.token _ ≠ .cancelled := of_decide_eq_true wanted
    have closed : ∃ fault, b.session.enter = .refused fault := by
      simp only [Session.enter, active, if_neg uncancelled]
      split <;> exact ⟨_, rfl⟩
    obtain ⟨fault, closed⟩ := closed
    rw [admission_of_closed closed] at admitted
    cases admitted
  | odd odd =>
    rw [admission_bytes admitted]
    exact odd
  | stale stale =>
    rw [admission_of_unsettled (settle_of_unresolved stale)] at admitted
    cases admitted

theorem runEngine_of_odd {number : Nat} {input : Bytes} (odd : input.length % 2 = 1) :
    b.runEngine number input old act = (b, .refused (.oddByteCount input.length)) := by
  have refused : b.session.ask input = .error (.oddByteCount input.length) := if_pos (by omega)
  simp only [runEngine, refused]

/-- An unfit parse is not answered, whatever the others do if it waits. -/
theorem Unfit.unanswered (unfit : b.Unfit mode source) :
    Unanswered (b.parse mode source old act company).2.1 := by
  cases admitted : b.admission mode source company with
  | none => exact (parse_of_not_admitted admitted old act).2
  | some a =>
    rw [outcome_of_admitted admitted, runEngine_of_odd (unfit.odd_of_admitted admitted)]
    exact .refused _

/-- An unfit parse leaves the engine as the others leave it if the parse waits. -/
theorem Unfit.engine_eq (unfit : b.Unfit mode source) :
    (b.parse mode source old act company).1.session.engine =
      (b.met mode source company).session.engine := by
  cases admitted : b.admission mode source company with
  | none => exact not_admitted_keeps (·.engine) (fun _ => rfl) admitted old act
  | some a =>
    rw [parse_keeps (·.engine) Session.engine_leaveRound admitted,
      runEngine_of_odd (unfit.odd_of_admitted admitted)]
    exact admission_keeps (·.engine) (fun _ => rfl) admitted

/-- A parse at a destroyed session changes nothing and is not answered. -/
theorem parse_unanswered_of_destroyed (gone : b.session.destroyed = true) (mode : Mode)
    (source : Source) (old : Option Nat) (act : Behaviour ρ) (company : Company α) :
    ∃ outcome, b.parse mode source old act company = (b, outcome, none) ∧ Unanswered outcome := by
  cases settled : b.settle source with
  | error fault =>
    refine ⟨.refused fault, ?_, .refused fault⟩
    cases mode with
    | withinRound => simp only [parse, parseWithin, settled]
    | wholeRound => simp only [parse, parseRound, settled]
  | ok input =>
    refine ⟨_, parse_of_destroyed gone settled old act company, ?_⟩
    split
    · exact .stuck
    · exact .refused _

end HostParsing.Bench

namespace HostParsing.Session

open Bench (Asks Unanswered Unfit)

variable {b : Bench} {call : Call}

/-! ## Calls -/

theorem Call.tally_of_unanswered {outcome : Outcome Fault Answer} (unanswered : Unanswered outcome)
    (call : Call) : call.tally outcome = 0 := by
  cases outcome with
  | done answer => exact absurd rfl (unanswered answer)
  | refused fault | stuck => cases call <;> rfl

theorem engine_of_destroying_unanswered (unanswered : Unanswered (destroying b).2.1) :
    (destroying b).1.session.engine = b.session.engine := by
  show b.session.destroy.1.engine = b.session.engine
  obtain ⟨-, fault, e⟩ | ⟨-, -, e⟩ | ⟨-, -, e⟩ := b.session.destroy_cases
  · rw [e]
  · rw [destroying, e] at unanswered
    exact absurd rfl (unanswered _)
  · rw [e]

theorem changing_of_unanswered {changed : Outcome Fault Session} {answer : Session → Answer}
    (unanswered : Unanswered (changing b changed answer).2.1) : (changing b changed answer).1 = b := by
  cases changed with
  | done s => exact absurd rfl (unanswered _)
  | refused fault | stuck => rfl

/-- A call made alone that is not answered leaves the engine as it is, unless a parse keeps
it. -/
theorem Call.engine_of_unanswered (unanswered : Unanswered (call.run alone b).2.1)
    (stays : (call.run alone b).1.session.running = b.session.running) :
    (call.run alone b).1.session.engine = b.session.engine := by
  cases call with
  | isParsing | limit | engine => rfl
  | beginRound | endRound | reset | setLimit =>
    rw [Call.run] at unanswered ⊢
    rw [changing_of_unanswered unanswered]
  | destroy =>
    rw [Call.run] at unanswered ⊢
    exact engine_of_destroying_unanswered unanswered
  | parse mode source old script =>
    rw [Call.run] at unanswered stays ⊢
    refine Bench.engine_of_parse_unanswered (fun b => rfl) (fun number limit b held => ?_)
      (.of_map unanswered) stays
    obtain ⟨_, _, led⟩ := runScript_tells script number limit 0 [] b
    exact led.keeps held
  | requestCancellation | token =>
    rw [Call.run] at unanswered
    exact absurd rfl (unanswered _)
  | cancelAndWait =>
    rw [Call.run, Bench.cancelAndWait]
    cases b.session.round with
    | none => rfl
    | some number =>
      simp only
      split <;> rfl
  | alongside waiter beside =>
    rw [Call.run] at unanswered
    split at unanswered <;> exact absurd rfl (unanswered _)
  | registry call =>
    rw [Call.run]
    split
    · rfl
    · cases call.run b.desk with
      | ok done | error fault => rfl

/-- A call that is made alone asks for what its answer tells. -/
theorem Call.asks_alone (call : Call) (b : Bench) :
    b.Asks (call.tally (call.run alone b).2.1) (call.run alone b).1 :=
  Asks.of_alone (call.run_asks alone (fun _ => 0) (fun b => .refl b) b)

/-! ## Destroyed sessions -/

/-- What calls leave of a destroyed session. -/
structure Shut (b after : Bench) : Prop where
  sound : after.session.Sound
  gone : after.session.destroyed = true
  engine : after.session.engine = b.session.engine

theorem Shut.trans {met after : Bench} (first : Shut b met) (rest : Shut met after) :
    Shut b after :=
  ⟨rest.sound, rest.gone, rest.engine.trans first.engine⟩

theorem Shut.again {after : Bench} (shut : Shut b after) : Shut after after :=
  ⟨shut.sound, shut.gone, rfl⟩

theorem Barred.shut {fault : Fault} {others : Others} (barred : Barred b call fault)
    (shut : Shut b b) :
    let ran := call.run others b
    Shut b ran.1 ∧ call.tally ran.2.1 = 0 ∧ ran.2.2 = none := by
  intro ran
  rw [show ran = _ from barred.run shut.sound shut.gone others]
  exact ⟨shut, call.tally_of_unanswered (.refused fault), rfl⟩

mutual

/-- A call on a destroyed session does not reach the engine, and does not wait for others. -/
theorem Call.run_shut (call : Call) (others : Others) {b : Bench} (shut : Shut b b) :
    let ran := call.run others b
    Shut b ran.1 ∧ call.tally ran.2.1 = 0 ∧ ran.2.2 = none := by
  intro ran
  cases call with
  | beginRound => exact Barred.beginRound.shut shut
  | endRound => exact Barred.endRound.shut shut
  | setLimit limit => exact (Barred.setLimit limit).shut shut
  | reset => exact Barred.reset.shut shut
  | engine => exact Barred.engine.shut shut
  | destroy => exact Barred.destroy.shut shut
  | isParsing | limit => exact ⟨shut, rfl, rfl⟩
  | parse mode source old script =>
    obtain ⟨outcome, e, unanswered⟩ := Bench.parse_unanswered_of_destroyed shut.gone mode source old
      (fun number limit b => runScript script number limit 0 [] b) others
    have same : ran = (b, outcome.map fun (tree, report) => .parsed tree report, none) := by
      simp only [ran, Call.run, e]
    rw [same]
    exact ⟨shut, Call.tally_of_unanswered (unanswered.map _) _, rfl⟩
  | requestCancellation =>
    rw [show ran = _ from (run_cancellation_of_destroyed shut.sound shut.gone others).1]
    exact ⟨shut, rfl, rfl⟩
  | cancelAndWait =>
    rw [show ran = _ from (run_cancellation_of_destroyed shut.sound shut.gone others).2]
    exact ⟨shut, rfl, rfl⟩
  | alongside waiter beside =>
    have led := waiter.run_shut (fun b => runAll beside b) shut
    simp only [ran, Call.run]
    generalize waiter.run (fun b => runAll beside b) b = waited at led
    obtain ⟨met, outcome, turns⟩ := waited
    obtain ⟨left, nothing, alone⟩ := led
    cases alone
    obtain ⟨left', nothing'⟩ := runAll_shut beside left.again
    refine ⟨left.trans left', ?_, rfl⟩
    show waiter.tally outcome + tallyAll beside (runAll beside met).2 = 0
    rw [show waiter.tally outcome = 0 from nothing, nothing']
    rfl
  | token number cancel =>
    cases cancel with
    | true => exact ⟨⟨shut.sound.cancelled number, shut.gone, rfl⟩, rfl, rfl⟩
    | false => exact ⟨shut, rfl, rfl⟩
  | registry call =>
    simp only [ran, Call.run]
    split
    · exact ⟨shut, rfl, rfl⟩
    · cases call.run b.desk with
      | ok done => exact ⟨⟨shut.sound, shut.gone, rfl⟩, rfl, rfl⟩
      | error fault => exact ⟨shut, rfl, rfl⟩

theorem runAll_shut (calls : List Call) {b : Bench} (shut : Shut b b) :
    let ran := runAll calls b
    Shut b ran.1 ∧ tallyAll calls ran.2 = 0 := by
  match calls with
  | [] =>
    rw [runAll]
    exact ⟨shut, rfl⟩
  | call :: rest =>
    obtain ⟨left, nothing, -⟩ := call.run_shut alone shut
    obtain ⟨left', nothing'⟩ := runAll_shut rest left.again
    rw [runAll]
    refine ⟨left.trans left', ?_⟩
    show call.tally (call.run alone b).2.1 + tallyAll rest (runAll rest (call.run alone b).1).2 = 0
    rw [nothing, nothing']
    rfl

end

/-- The engine of a session has been asked for just the parses and the resets that
were answered, after any calls on the session, as long as no parse keeps it. A single call
asks for just those that were answered to it, at any time and also while a parse runs. So
a call that is refused, or waits for others, does not reach the engine, and neither does
any call on a session that is destroyed. A parse that is unfit is never answered, and does
not reach the engine. -/
theorem engine_of_runAll (limit : Option Nat) :
    (∀ calls, let ran := runAll calls (Bench.start limit)
      (waitsAny ran.2 = false → ran.1.session.running = false) ∧
      (ran.1.session.destroyed = false → ran.1.session.running = false →
        ∃ engine, ran.1.session.engine = some engine ∧
          Asked ⟨0, 0, limit⟩ (tallyAll calls ran.2) engine)) ∧
    (∀ b, (Bench.start limit).Leads b → ∀ call : Call, let ran := call.run alone b
      let tally := call.tally ran.2.1
      (ran.1.session.running = b.session.running →
        (∀ after, ran.1.session.engine = some after →
          ∃ engine, b.session.engine = some engine ∧ Asked engine tally after) ∧
        (Unanswered ran.2.1 → ran.1.session.engine = b.session.engine)) ∧
      (Unanswered ran.2.1 → tally = 0) ∧
      (b.session.destroyed = true → tally = 0 ∧ ran.1.session.engine = b.session.engine ∧
        (b.session.leaving = false → ran.1.session.engine = none))) ∧
    (∀ b mode source, Unfit b mode source → ∀ old script others,
      let ran := (Call.parse mode source old script).run others b
      Unanswered ran.2.1 ∧ ran.1.session.engine = (b.met mode source others).session.engine) := by
  refine ⟨fun calls => ⟨fun returned => ?_, fun alive free => ?_⟩, fun b reached call => ?_, ?_⟩
  · exact congrArg Bench.Held.engine (held_of_returned returned)
  · have led := runAll_asks calls (Bench.start limit)
    have present := (runAll_leads calls (Bench.start limit)).sound.engine_alive alive
    obtain ⟨engine, present⟩ := Option.isSome_iff_exists.mp present
    obtain ⟨first, held, asks⟩ := led.engine free present
    cases held
    exact ⟨engine, present, asks⟩
  · refine ⟨fun stays => ⟨fun after => (call.asks_alone b).engine stays,
      fun unanswered => Call.engine_of_unanswered unanswered stays⟩,
      fun unanswered => call.tally_of_unanswered unanswered, fun gone => ?_⟩
    have sound := reached.sound
    obtain ⟨shut, nothing, -⟩ := call.run_shut alone ⟨sound, gone, rfl⟩
    exact ⟨nothing, shut.engine, fun left =>
      shut.engine.trans (sound.engine_none_iff.mpr ⟨gone, left⟩)⟩
  · intro b mode source unfit old script others
    rw [Call.run]
    exact ⟨unfit.unanswered.map _, unfit.engine_eq⟩

/-- Two parses and a reset are answered, one of the parses without a tree; a parse
while another runs and a parse of a whole round are refused for their inputs. A
parse outside a round would not be answered either. -/
theorem engine_of_runAll_mixed :
    let input : Bench.Source := .bytes [0x61, 0]
    let odd : Bench.Source := .bytes [0x61]
    let calls : List Call := [.setLimit (some 5), .beginRound,
      .parse .withinRound input none
        [.call .requestCancellation, .call (.parse .withinRound odd none []), .poll],
      .reset, .endRound, .parse .wholeRound odd none [], .parse .wholeRound input none []]
    let b := (runAll calls (Bench.start none)).1
    (∃ engine, b.session.engine = some engine ∧ Asked ⟨0, 0, none⟩ ⟨2, 1⟩ engine) ∧
      ((Call.parse .withinRound input none []).run alone b).1.session.engine = b.session.engine := by
  intro input odd calls b
  obtain ⟨counted, called, unfit⟩ := engine_of_runAll none
  have unanswered := unfit b .withinRound input (.outside rfl) none [] alone
  exact ⟨(counted calls).2 rfl rfl, unanswered.2⟩

end HostParsing.Session
