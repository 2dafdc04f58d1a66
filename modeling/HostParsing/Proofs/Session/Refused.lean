import HostParsing.Proofs.Session.Calls
/-!
# Refused calls

A call on a session that is refused leaves everything as it met it, with one
exception (`run_refused`). A parse of a whole round looks at its input only when it
has begun its round; if the input is not whole code units, the round ends at once
and its number is used up (`WastesRound`, `skipRound`).
-/

namespace HostParsing.Session

variable {s : Session} {input : Bytes} {fault : Fault}

/-- The session with the number of one round used up. -/
def skipRound (s : Session) : Session :=
  { s with begun := s.begun + 1, tokens := s.tokens.push .expired }

theorem skipRound_ne (s : Session) : s.skipRound ≠ s := fun same =>
  Nat.succ_ne_self s.begun (congrArg begun same)

theorem leaveRound_install (sound : s.Sound) (idle : s.round = none) :
    s.install.leaveRound = s.skipRound := by
  have ended : (s.tokens.push Token.active).setIfInBounds (s.begun + 1) .expired =
      s.tokens.push .expired := by
    rw [← sound.size_tokens, Array.push_eq_append,
      Array.setIfInBounds_append_right (Nat.le_refl _), Nat.sub_self]
    rfl
  simp only [leaveRound, endRound, install, setToken, skipRound, ended, ← idle]

/-- As long as a session lives, it is for the input that the engine does not get
it. -/
theorem odd_of_handOver (sound : s.Sound) (alive : s.destroyed = false)
    (refused : s.handOver input = .refused fault) : input.length % 2 = 1 := by
  have present := sound.engine_alive alive
  refine Classical.byContradiction fun even => ?_
  have asks : s.ask input = .ok _ := ask_eq_ok_iff.mpr ⟨by omega, rfl⟩
  rw [handOver, asks, Outcome.ofExcept_ok, Outcome.bind_done, engage_eq_refused_iff] at refused
  rw [refused.2.1] at present
  cases present

end HostParsing.Session

namespace HostParsing.Bench

variable {ρ α : Type} {b : Bench} {mode : Mode} {source : Source} {company : Company α}
  {input : Input} {old : Option Nat} {act : Behaviour ρ} {fault : Fault} {a : Admission}

/-- The bench that a parse meets: if it has to wait, the one that the others
leave. -/
def met (b : Bench) (mode : Mode) (source : Source) (company : Company α) : Bench :=
  match mode, b.settle source, b.session.enter with
  | .wholeRound, .ok _, .waits => (company b).1
  | _, _, _ => b

/-- Whether a parse begins a round only to find that its input is not whole. -/
def WastesRound (b : Bench) (mode : Mode) (source : Source) : Prop :=
  mode = .wholeRound ∧ b.session.phase = .idle ∧
    ∃ input, source = .bytes input ∧ input.length % 2 = 1

/-- Buffers hold whole units, so an input that is not whole was given as bytes. -/
theorem source_of_odd {after : Bench} (settled : b.settle source = .ok input)
    (odd : (after.readInput input).length % 2 = 1) :
    ∃ bytes, source = .bytes bytes ∧ bytes.length % 2 = 1 := by
  cases source with
  | bytes bytes =>
    cases settled
    exact ⟨bytes, rfl, odd⟩
  | handle raw =>
    cases e : b.desk.registry.resolveRaw raw with
    | error fault => simp [settle, e, Except.map] at settled
    | ok id =>
      simp only [settle, e, Except.map, Except.ok.injEq] at settled
      subst settled
      have even := after.even_content id
      simp only [readInput] at odd
      omega

theorem runEngine_refused {number : Nat} {bytes : Bytes}
    (refused : (b.runEngine number bytes old act).2 = .refused fault) :
    b.runEngine number bytes old act = (b, .refused fault) ∧
      b.session.handOver bytes = .refused fault := by
  rcases handOver_cases b.session bytes with ⟨fault', e⟩ | e | ⟨handed, e⟩
  · rw [runEngine_of_refused e] at refused ⊢
    cases refused
    exact ⟨rfl, e⟩
  · obtain ⟨asked, -, waits⟩ := runEngine_of_stuck e number old act
    rw [waits] at refused
    cases refused
  · rw [runEngine_of_handOver e, outcome_conclude] at refused
    split at refused <;> cases refused

/-- Who is refused while a buffer is locked leaves the buffer unlocked. -/
theorem holding_refused {β : Type} {doing : Bench → Bench × Outcome Fault β}
    (leaves : ∀ fault, (doing (b.lock input)).2 = .refused fault →
      (doing (b.lock input)).1 = b.lock input)
    (refused : (b.holding input doing).2 = .refused fault) :
    (doing (b.lock input)).2 = .refused fault ∧ b.holding input doing = (b, .refused fault) := by
  cases locked : b.isLocked input with
  | true =>
    rw [holding_of_locked locked] at refused
    cases refused
  | false =>
    obtain ⟨outcome, after⟩ := holding_of_free locked doing
    rw [outcome] at refused
    rw [leaves fault refused] at after
    refine ⟨refused, Prod.ext ?_ (outcome.trans refused)⟩
    rw [after, refused]
    exact unlock_lock b input

theorem not_wastesRound_of_enter (refused : b.session.enter = .refused fault) :
    ¬ b.WastesRound mode source := by
  rintro ⟨-, idle, -⟩
  obtain ⟨alive, idle⟩ := Session.phase_eq_idle_iff.mp idle
  rw [enter_eq_entered_iff.mpr ⟨alive, idle, rfl⟩] at refused
  cases refused

/-- A parse that is refused in its own round has only used its number up. -/
theorem runRound_refused {met : Bench} {session : Session} (settled : b.settle source = .ok input)
    (sound : met.session.Sound) (entered : met.session.enter = .entered session)
    (refused : (runRound { met with session } input old act).2 = .refused fault) :
    met.WastesRound .wholeRound source ∧
      (runRound { met with session } input old act).1 =
        { met with session := met.session.skipRound } := by
  obtain ⟨alive, idle, rfl⟩ := enter_eq_entered_iff.mp entered
  have whole := runRound_eq { met with session := met.session.install } input old act
  obtain ⟨ran, same⟩ := holding_refused
    (fun fault refused => congrArg Prod.fst (runEngine_refused refused).1)
    ((congrArg Prod.snd whole).symm.trans refused)
  have odd := Session.odd_of_handOver (sound.install alive idle) alive (runEngine_refused ran).2
  rw [readInput_lock] at odd
  refine ⟨⟨rfl, Session.phase_eq_idle_iff.mpr ⟨alive, idle⟩, source_of_odd settled odd⟩, ?_⟩
  rw [whole, same, ← Session.leaveRound_install sound idle]
  rfl

/-- A parse that is refused leaves the bench as it met it, unless it wasted a
round. -/
theorem parse_refused (sound : (b.met mode source company).session.Sound)
    (refused : (b.parse mode source old act company).2.1 = .refused fault) :
    let met := b.met mode source company
    let after := (b.parse mode source old act company).1
    (met.WastesRound mode source ∧ after = { met with session := met.session.skipRound }) ∨
      (¬ met.WastesRound mode source ∧ after = met) := by
  cases mode with
  | withinRound =>
    refine .inr ⟨nofun, ?_⟩
    simp only [parse, parseWithin, met] at refused ⊢
    cases settled : b.settle source with
    | error fault => rfl
    | ok input =>
      cases active : b.session.activeRound with
      | error fault => simp only [holding_runActive_of_error active]
      | ok number =>
        simp only [settled, holding_runActive active] at refused ⊢
        exact congrArg Prod.fst (holding_refused
          (fun fault refused => congrArg Prod.fst (runEngine_refused refused).1) refused).2
  | wholeRound =>
    simp only [parse, parseRound, met] at refused sound ⊢
    cases settled : b.settle source with
    | error fault =>
      refine .inr ⟨?_, rfl⟩
      rintro ⟨-, -, bytes, rfl, -⟩
      cases settled
    | ok input =>
      simp only [settled] at refused sound ⊢
      cases entry : b.session.enter with
      | refused fault =>
        simp only [entry] at refused sound ⊢
        exact .inr ⟨not_wastesRound_of_enter entry, trivial⟩
      | entered session =>
        simp only [entry] at refused sound ⊢
        exact .inl (runRound_refused settled sound entry refused)
      | waits =>
        simp only [entry] at refused sound ⊢
        cases entry' : (company b).1.session.enter with
        | refused fault =>
          simp only [entry'] at refused ⊢
          exact .inr ⟨not_wastesRound_of_enter entry', trivial⟩
        | entered session =>
          simp only [entry'] at refused ⊢
          exact .inl (runRound_refused settled sound entry' refused)
        | waits =>
          simp only [entry'] at refused
          cases refused

/-! ## What a parse leaves alone -/

section

variable {γ : Type} (f : Session → γ)

/-- What the others leave alone is as it was. -/
theorem met_keeps (leaves : ∀ b : Bench, f (company b).1.session = f b.session) (b : Bench)
    (mode : Mode) (source : Source) : f (b.met mode source company).session = f b.session := by
  unfold met
  split
  · exact leaves b
  · rfl

/-- What the beginning of a round leaves alone is, when a parse is admitted, as the bench
has it that the parse meets. -/
theorem admission_keeps (keeps : ∀ s : Session, f s.install = f s)
    (admitted : b.admission mode source company = some a) :
    f a.bench.session = f (b.met mode source company).session := by
  cases mode with
  | withinRound =>
    obtain ⟨input, -, -, -, e⟩ := admission_withinRound admitted
    rw [e]
    rfl
  | wholeRound =>
    obtain ⟨input, settled, ⟨-, admits⟩ | ⟨waits, admits⟩⟩ := admission_wholeRound admitted
    · obtain ⟨entered, -, e⟩ := entry_spec admits
      simp only [met, settled, entered]
      rw [e]
      exact keeps b.session
    · obtain ⟨-, -, e⟩ := entry_spec admits
      simp only [met, settled, waits]
      rw [e]
      exact keeps (company b).1.session

/-- What the end of a round leaves alone is, after a parse, as the engine's part has left
it. -/
theorem parse_keeps (keeps : ∀ s : Session, f s.leaveRound = f s)
    (admitted : b.admission mode source company = some a) (old : Option Nat)
    (act : Behaviour ρ) : f (b.parse mode source old act company).1.session =
      f (a.bench.runEngine a.number a.input old act).1.session := by
  cases mode with
  | withinRound => rw [(parse_withinRound admitted old act).2.2]
  | wholeRound =>
    rw [(parse_wholeRound admitted old act).2.2]
    split
    · rfl
    · exact keeps _

end

/-- A parse that is not admitted leaves the bench as it meets it, but for a round that it
may have begun before it waits for its buffer, and is not answered. -/
theorem parse_of_not_admitted (refused : b.admission mode source company = none)
    (old : Option Nat) (act : Behaviour ρ) :
    let met := b.met mode source company
    let whole := b.parse mode source old act company
    (whole.1 = met ∨ whole.1 = { met with session := met.session.install }) ∧
      ∀ answer, whole.2.1 ≠ .done answer := by
  have entered {met : Bench} {session : Session} {input : Input}
      (entered : met.session.enter = .entered session)
      (locked : ({ met with session } : Bench).reserve session.begun input = none) :
      let ran := ({ met with session } : Bench).runRound input old act
      (ran.1 = met ∨ ran.1 = { met with session := met.session.install }) ∧
        ∀ answer, ran.2 ≠ .done answer := by
    obtain ⟨-, -, rfl⟩ := enter_eq_entered_iff.mp entered
    rw [runRound_of_locked (reserve_eq_none_iff.mp locked)]
    exact ⟨.inr rfl, Outcome.stuck_ne_done⟩
  cases mode with
  | withinRound =>
    simp only [admission, parse, parseWithin, met] at refused ⊢
    cases settled : b.settle source with
    | error fault => exact ⟨.inl rfl, Outcome.refused_ne_done fault⟩
    | ok input =>
      cases active : b.session.activeRound with
      | error fault =>
        simp only [holding_runActive_of_error active]
        refine ⟨.inl trivial, ?_⟩
        split
        · exact Outcome.stuck_ne_done
        · exact Outcome.refused_ne_done fault
      | ok number =>
        simp only [settled, active, reserve_eq_none_iff] at refused
        simp only [holding_of_locked refused]
        exact ⟨.inl trivial, Outcome.stuck_ne_done⟩
  | wholeRound =>
    simp only [admission, parse, parseRound, met, entry] at refused ⊢
    cases settled : b.settle source with
    | error fault => exact ⟨.inl rfl, Outcome.refused_ne_done fault⟩
    | ok input =>
      cases entry : b.session.enter with
      | refused fault => exact ⟨.inl rfl, Outcome.refused_ne_done fault⟩
      | entered session =>
        simp only [settled, entry] at refused
        exact entered entry refused
      | waits =>
        simp only [settled, entry] at refused ⊢
        cases entry' : (company b).1.session.enter with
        | refused fault => exact ⟨.inl rfl, Outcome.refused_ne_done fault⟩
        | waits => exact ⟨.inl rfl, Outcome.stuck_ne_done⟩
        | entered session =>
          simp only [entry'] at refused
          exact entered entry' refused

/-- What the beginning of a round leaves alone is as the bench has it that a parse meets
which is not admitted. -/
theorem not_admitted_keeps {γ : Type} (f : Session → γ) (keeps : ∀ s : Session, f s.install = f s)
    (refused : b.admission mode source company = none) (old : Option Nat) (act : Behaviour ρ) :
    f (b.parse mode source old act company).1.session =
      f (b.met mode source company).session := by
  rcases (parse_of_not_admitted refused old act).1 with same | begun
  · rw [same]
  · rw [begun]
    exact keeps _

/-- A parse that comes to the engine is answered as the engine's part in it is. -/
theorem outcome_of_admitted (admitted : b.admission mode source company = some a)
    (old : Option Nat) (act : Behaviour ρ) : (b.parse mode source old act company).2.1 =
      (a.bench.runEngine a.number a.input old act).2 := by
  cases mode with
  | withinRound => exact (parse_withinRound admitted old act).1
  | wholeRound => exact (parse_wholeRound admitted old act).1

end HostParsing.Bench

namespace HostParsing.Session

open Bench (Leads)

/-- The bench that a call meets, after it has waited. -/
def Call.met (call : Call) (others : Others) (b : Bench) : Bench :=
  match call with
  | .parse mode source _ _ => b.met mode source others
  | _ => b

/-- Whether a call is a parse that wastes a round. -/
def Call.WastesRound (call : Call) (met : Bench) : Prop :=
  match call with
  | .parse mode source _ _ => met.WastesRound mode source
  | _ => False

theorem changing_refused {b : Bench} {changed : Outcome Fault Session} {answer : Session → Answer}
    {fault : Fault} (refused : (changing b changed answer).2.1 = .refused fault) :
    (changing b changed answer).1 = b := by
  cases changed with
  | done s => cases refused
  | refused fault => rfl
  | stuck => rfl

theorem destroying_refused {b : Bench} {fault : Fault}
    (refused : (destroying b).2.1 = .refused fault) : (destroying b).1 = b := by
  unfold destroying destroy at refused ⊢
  cases marks : b.session.markDestroyed with
  | error fault => rfl
  | ok marked =>
    cases gives : marked.giveUp with
    | none | some gone => simp [marks, gives, Outcome.map] at refused

theorem refused_of_map {α β : Type} {f : α → β} {outcome : Outcome Fault α} {fault : Fault}
    (refused : outcome.map f = .refused fault) : outcome = .refused fault := by
  cases outcome with
  | refused fault => exact congrArg Outcome.refused (Outcome.refused.inj refused)
  | done a => cases refused
  | stuck => cases refused

theorem cancelAndWait_not_refused {α : Type} {company : Bench.Company α} {b : Bench}
    {fault : Fault} : (b.cancelAndWait company).2.1 ≠ .refused fault := by
  unfold Bench.cancelAndWait
  cases b.session.round with
  | none => nofun
  | some number =>
    simp only
    split <;> nofun

theorem Call.met_leads {others : Others} (friendly : ∀ b : Bench, b.Leads (others b).1)
    (call : Call) (b : Bench) : b.Leads (call.met others b) := by
  unfold Call.met
  split
  · unfold Bench.met
    split
    · exact friendly b
    · exact .refl b
  · exact .refl b

theorem Call.run_refused_cases {call : Call} {others : Others} {b : Bench} {fault : Fault}
    (sound : (call.met others b).session.Sound)
    (refused : (call.run others b).2.1 = .refused fault) :
    let met := call.met others b
    let after := (call.run others b).1
    (call.WastesRound met ∧ after = { met with session := met.session.skipRound }) ∨
      (¬ call.WastesRound met ∧ after = met) := by
  cases call with
  | isParsing | limit | requestCancellation | token =>
    rw [Call.run] at refused
    cases refused
  | engine =>
    rw [Call.run]
    exact .inr ⟨id, rfl⟩
  | beginRound | endRound | reset | setLimit =>
    rw [Call.run] at refused ⊢
    exact .inr ⟨id, changing_refused refused⟩
  | destroy =>
    rw [Call.run] at refused ⊢
    exact .inr ⟨id, destroying_refused refused⟩
  | parse mode source old script =>
    rw [Call.run] at refused ⊢
    exact Bench.parse_refused sound (refused_of_map refused)
  | cancelAndWait =>
    rw [Call.run] at refused
    exact absurd (refused_of_map refused) cancelAndWait_not_refused
  | alongside waiter beside =>
    rw [Call.run] at refused
    split at refused <;> cases refused
  | registry call =>
    rw [Call.run] at refused ⊢
    split
    · exact .inr ⟨id, rfl⟩
    · rename_i free
      rw [if_neg free] at refused
      cases e : call.run b.desk with
      | ok done => simp [e] at refused
      | error fault => exact .inr ⟨id, rfl⟩

/-- A call that is refused leaves everything as it met it, except for a parse that
wasted a round: that has used up the number of one round, and nothing else. -/
theorem run_refused {limit : Option Nat} {call : Call} {others : Others} {b : Bench} {fault : Fault}
    (reached : (Bench.start limit).Leads b) (friendly : ∀ b : Bench, b.Leads (others b).1)
    (refused : (call.run others b).2.1 = .refused fault) :
    let met := call.met others b
    let after := (call.run others b).1
    (after = met ↔ ¬ call.WastesRound met) ∧
      (call.WastesRound met → after = { met with session := met.session.skipRound }) := by
  intro met after
  have sound := (reached.trans (call.met_leads friendly b)).sound
  rcases call.run_refused_cases sound refused with ⟨wasted, left⟩ | ⟨whole, left⟩
  · have left : after = { met with session := met.session.skipRound } := left
    refine ⟨⟨fun same => ?_, fun whole => absurd wasted whole⟩, fun _ => left⟩
    rw [left] at same
    exact absurd (congrArg Bench.session same) (skipRound_ne met.session)
  · exact ⟨⟨fun _ => whole, fun _ => left⟩, fun wasted => absurd wasted whole⟩

/-- A second round is refused, and so is a parse of one, whole input or not. -/
theorem run_refused_busy :
    let b : Bench := { Bench.start none with session := (start none).install }
    let call : Call := .parse .wholeRound (.bytes [0x61]) none []
    (call.run (fun b => (b, [])) b).2.1 = .refused .parseInProgress ∧
      (call.run (fun b => (b, [])) b).1 = b := by
  intro b call
  have busy : (call.run (fun b => (b, [])) b).2.1 = .refused .parseInProgress := rfl
  have reached : (Bench.start none).Leads b := .of_happens (.began rfl rfl)
  refine ⟨busy, (run_refused reached (fun b => .refl b) busy).1.mpr ?_⟩
  rintro ⟨-, idle, -⟩
  cases idle

/-- A parse that wastes a round: it is refused, and the round that begins next has
the number after the one it would have had. -/
theorem refused_parse_skips :
    let b := Bench.start none
    let alone : Others := fun b => (b, [])
    let refused := (Call.parse .wholeRound (.bytes [0x61]) none []).run alone b
    refused.2.1 = .refused (.oddByteCount 1) ∧
      (Call.beginRound.run alone b).2.1 = .done (.round 1) ∧
      (Call.beginRound.run alone refused.1).2.1 = .done (.round 2) :=
  ⟨rfl, rfl, rfl⟩

end HostParsing.Session
