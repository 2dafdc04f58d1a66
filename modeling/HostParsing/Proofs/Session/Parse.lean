import HostParsing.Proofs.Session.History
import HostParsing.Session.Parse
/-!
# The stages of a parse

A parse is refused, waits, or is admitted to ask for the engine in a certain round,
with its buffer locked (`admission`). From there it is one run of the engine
(`handOver_cases`), after which a parse of a whole round ends the active round
(`parse_withinRound`, `parse_wholeRound`). A parse is admitted by calls on the session
alone (`admission_leads`).
-/

namespace HostParsing.Bench

open Session (History Happens)

/-- Where a parse comes to the engine: its round, its input, and the bench then. -/
structure Admission where
  number : Nat
  input : Bytes
  bench : Bench

/-- Where a parse in a round is when it has locked the buffer of its input, unless
another parse holds that. -/
def reserve (b : Bench) (number : Nat) (input : Input) : Option Admission :=
  if b.isLocked input then none else some ⟨number, b.readInput input, b.lock input⟩

/-- Where a parse of a whole round is when it has entered a round. -/
def entry (b : Bench) (input : Input) : Option Admission :=
  match b.session.enter with
  | .entered session => ({ b with session } : Bench).reserve session.begun input
  | _ => none

/-- Where a parse comes to the engine, if it does. -/
def admission {α : Type} (b : Bench) (mode : Mode) (source : Source) (company : Company α) :
    Option Admission :=
  match b.settle source with
  | .error _ => none
  | .ok input =>
    match mode with
    | .withinRound =>
      match b.session.activeRound with
      | .ok number => b.reserve number input
      | .error _ => none
    | .wholeRound =>
      match b.session.enter with
      | .waits => (company b).1.entry input
      | _ => b.entry input

/-- What leads from one bench to another is calls on the session. -/
def Leads (b after : Bench) : Prop :=
  ∃ events, History b.session events after.session

variable {ρ α β : Type} {b after : Bench} {mode : Mode} {source : Source} {company : Company α}
  {a : Admission} {input : Input}

/-- Buffers hold whole units. -/
theorem even_content (b : Bench) (id : BufferId) : (b.content id).length % 2 = 0 :=
  (b.desk.registry.buffer id).even

theorem settle_of_resolved {raw : UInt64} {id : BufferId}
    (resolved : b.desk.registry.resolveRaw raw = .ok id) :
    b.settle (.handle raw) = .ok (.buffer id) := by
  rw [settle, resolved]
  rfl

theorem settle_of_unresolved {raw : UInt64} {fault : Fault}
    (unresolved : b.desk.registry.resolveRaw raw = .error fault) :
    b.settle (.handle raw) = .error fault := by
  rw [settle, unresolved]
  rfl

theorem Leads.refl (b : Bench) : b.Leads b := ⟨[], .nil⟩

theorem Leads.trans {last : Bench} (first : b.Leads after) (rest : after.Leads last) :
    b.Leads last := by
  obtain ⟨events, history⟩ := first
  obtain ⟨more, history'⟩ := rest
  exact ⟨events ++ more, history.trans history'⟩

theorem Leads.of_happens {event : Session.Event} (step : Happens b.session event after.session) :
    b.Leads after := ⟨[event], .single step⟩

theorem Leads.sound_of (led : b.Leads after) (sound : b.session.Sound) : after.session.Sound := by
  obtain ⟨events, history⟩ := led
  exact history.sound sound

/-- A bench that calls lead to from the start has a sound session. -/
theorem Leads.sound {limit : Option Nat} (reached : (start limit).Leads b) : b.session.Sound :=
  reached.sound_of (Session.sound_start limit)

/-! ## Locks -/

@[simp] theorem session_lock (b : Bench) (input : Input) : (b.lock input).session = b.session := rfl

@[simp] theorem desk_lock (b : Bench) (input : Input) : (b.lock input).desk = b.desk := rfl

@[simp] theorem trees_lock (b : Bench) (input : Input) : (b.lock input).trees = b.trees := rfl

@[simp] theorem session_unlock (b : Bench) (input : Input) :
    (b.unlock input).session = b.session := rfl

@[simp] theorem desk_unlock (b : Bench) (input : Input) : (b.unlock input).desk = b.desk := rfl

@[simp] theorem unlock_bytes (b : Bench) (input : Bytes) : b.unlock (.bytes input) = b := rfl

@[simp] theorem readInput_lock (b : Bench) (input input' : Input) :
    (b.lock input').readInput input = b.readInput input := by
  cases input <;> rfl

theorem unlock_lock (b : Bench) (input : Input) : (b.lock input).unlock input = b := by
  cases input with
  | bytes input => rfl
  | buffer id =>
    have erased : (id :: b.locked).erase id = b.locked := List.erase_cons_head id b.locked
    exact congrArg (fun locked => { b with locked }) erased

theorem holding_congr {act' act : Bench → Bench × Outcome Fault β}
    (same : act' (b.lock input) = act (b.lock input)) :
    b.holding input act' = b.holding input act := by
  rw [holding, holding, same]

theorem holding_of_locked (held : b.isLocked input = true)
    (act : Bench → Bench × Outcome Fault β) : b.holding input act = (b, .stuck) := if_pos held

/-- What is done while a buffer is locked comes to the same as without the lock, but for
the lock itself. -/
theorem holding_of_free (free : b.isLocked input = false)
    (act : Bench → Bench × Outcome Fault β) :
    let ran := act (b.lock input)
    (b.holding input act).2 = ran.2 ∧
      (b.holding input act).1 = if ran.2.isStuck then ran.1 else ran.1.unlock input := by
  intro ran
  rw [holding, if_neg (Bool.eq_false_iff.mp free), show act (b.lock input) = ran from rfl]
  obtain ⟨after, outcome⟩ := ran
  cases outcome <;> exact ⟨rfl, rfl⟩

/-- What comes to an end while a buffer is locked leaves that unlocked. -/
theorem holding_of_done (free : b.isLocked input = false)
    {act : Bench → Bench × Outcome Fault β} {after : Bench} {answer : β}
    (ran : act (b.lock input) = (after, .done answer)) :
    b.holding input act = (after.unlock input, .done answer) := by
  rw [holding, if_neg (Bool.eq_false_iff.mp free), ran]

/-- What a lock leaves alone is as what is done leaves it. -/
theorem holding_keeps {γ : Type} (f : Bench → γ) (keeps : ∀ b : Bench, f (b.unlock input) = f b)
    (free : b.isLocked input = false) (act : Bench → Bench × Outcome Fault β) :
    f (b.holding input act).1 = f (act (b.lock input)).1 := by
  rw [(holding_of_free free act).2]
  split
  · rfl
  · exact keeps _

/-! ## Admission -/

theorem enter_eq_entered_iff {s t : Session} :
    s.enter = .entered t ↔ s.destroyed = false ∧ s.round = none ∧ s.install = t := by
  unfold Session.enter
  cases s.destroyed with
  | true => simp
  | false =>
    cases s.round with
    | none => simp
    | some number => by_cases e : s.token number = .cancelled <;> simp [e]

theorem enter_eq_waits_iff {s : Session} : s.enter = .waits ↔
    s.destroyed = false ∧ ∃ number, s.round = some number ∧ s.token number = .cancelled := by
  unfold Session.enter
  cases s.destroyed with
  | true => simp
  | false =>
    cases s.round with
    | none => simp
    | some number => by_cases e : s.token number = .cancelled <;> simp [e]

/-- A session refuses a whole round if it is destroyed, and else if its round is not
cancelled. -/
theorem enter_refused_cases {s : Session} {fault : Fault} (refused : s.enter = .refused fault) :
    (s.destroyed = true ∧ fault = .sessionDestroyed) ∨
      ∃ number, s.round = some number ∧ s.token number ≠ .cancelled ∧
        fault = .parseInProgress := by
  unfold Session.enter at refused
  split at refused
  · rename_i gone
    cases refused
    exact .inl ⟨gone, rfl⟩
  · split at refused
    · cases refused
    · rename_i number active
      split at refused
      · cases refused
      · rename_i wanted
        cases refused
        exact .inr ⟨number, active, wanted, rfl⟩

theorem enter_leads {session : Session} (entered : b.session.enter = .entered session) :
    b.Leads { b with session } := by
  obtain ⟨alive, idle, rfl⟩ := enter_eq_entered_iff.mp entered
  exact .of_happens (.began alive idle)

theorem reserve_eq_some_iff {number : Nat} : b.reserve number input = some a ↔
    b.isLocked input = false ∧ ⟨number, b.readInput input, b.lock input⟩ = a := by
  unfold reserve
  cases b.isLocked input <;> simp

theorem reserve_eq_none_iff {number : Nat} :
    b.reserve number input = none ↔ b.isLocked input = true := by
  unfold reserve
  cases b.isLocked input <;> simp

theorem entry_spec (admitted : b.entry input = some a) :
    b.session.enter = .entered a.bench.session ∧ b.isLocked input = false ∧
      a = ⟨b.session.begun + 1, b.readInput input,
        ({ b with session := b.session.install } : Bench).lock input⟩ := by
  unfold entry at admitted
  cases e : b.session.enter with
  | entered session =>
    simp only [e, reserve_eq_some_iff] at admitted
    obtain ⟨free, rfl⟩ := admitted
    obtain ⟨-, -, rfl⟩ := enter_eq_entered_iff.mp e
    refine ⟨rfl, free, ?_⟩
    cases input <;> rfl
  | _ => simp [e] at admitted

/-- A parse within the active round is admitted at once. -/
theorem admission_withinRound (admitted : b.admission .withinRound source company = some a) :
    ∃ input, b.settle source = .ok input ∧ b.session.activeRound = .ok a.number ∧
      b.isLocked input = false ∧ a = ⟨a.number, b.readInput input, b.lock input⟩ := by
  unfold admission at admitted
  cases settled : b.settle source with
  | error fault => simp [settled] at admitted
  | ok input =>
    cases active : b.session.activeRound with
    | error fault => simp [settled, active] at admitted
    | ok number =>
      simp only [settled, active, reserve_eq_some_iff] at admitted
      obtain ⟨free, rfl⟩ := admitted
      exact ⟨input, rfl, rfl, free, rfl⟩

/-- A parse of a whole round is admitted at once, or after the company has
acted. -/
theorem admission_wholeRound (admitted : b.admission .wholeRound source company = some a) :
    ∃ input, b.settle source = .ok input ∧
      ((b.session.enter ≠ .waits ∧ b.entry input = some a) ∨
        (b.session.enter = .waits ∧ (company b).1.entry input = some a)) := by
  unfold admission at admitted
  cases settled : b.settle source with
  | error fault => simp [settled] at admitted
  | ok input =>
    cases met : b.session.enter with
    | waits =>
      simp only [settled, met] at admitted
      exact ⟨input, rfl, .inr ⟨rfl, admitted⟩⟩
    | entered session | refused fault =>
      simp only [settled, met] at admitted
      exact ⟨input, rfl, .inl ⟨nofun, admitted⟩⟩

theorem round_of_activeRound {s : Session} {number : Nat} (active : s.activeRound = .ok number) :
    s.round = some number := by
  unfold Session.activeRound at active
  split at active
  · cases active
  · split at active <;> simp_all

/-- A parse comes to the engine in the active round. -/
theorem admission_round (admitted : b.admission mode source company = some a) :
    a.bench.session.round = some a.number := by
  cases mode with
  | withinRound =>
    obtain ⟨input, -, active, -, e⟩ := admission_withinRound admitted
    rw [e]
    exact round_of_activeRound active
  | wholeRound =>
    obtain ⟨input, -, ⟨-, e⟩ | ⟨-, e⟩⟩ := admission_wholeRound admitted
    · rw [(entry_spec e).2.2]; rfl
    · rw [(entry_spec e).2.2]; rfl

theorem entry_leads (admitted : b.entry input = some a) : b.Leads a.bench :=
  enter_leads (entry_spec admitted).1

theorem admission_leads (friendly : ∀ b : Bench, b.Leads (company b).1)
    (admitted : b.admission mode source company = some a) : b.Leads a.bench := by
  cases mode with
  | withinRound =>
    obtain ⟨input, -, -, -, e⟩ := admission_withinRound admitted
    rw [e]
    exact .refl b
  | wholeRound =>
    obtain ⟨input, -, ⟨-, e⟩ | ⟨-, e⟩⟩ := admission_wholeRound admitted
    · exact entry_leads e
    · exact (friendly b).trans (entry_leads e)

/-! ## The engine's part -/

end HostParsing.Bench

namespace HostParsing.Session

variable {s t : Session} {limit : Option Nat} {input : Bytes} {fault : Fault}

theorem engage_eq_done_iff : s.engage limit = .done t ↔
    s.running = false ∧ ∃ engine, s.engine = some engine ∧
      { s.withdraw limit with
        engine := some { engine with parses := engine.parses + 1, limit }
        running := true } = t := by
  unfold engage freeEngine
  cases s.running <;> cases s.engine <;> simp [Outcome.map]

theorem engage_eq_refused_iff : s.engage limit = .refused fault ↔
    s.running = false ∧ s.engine = none ∧ fault = .sessionDestroyed := by
  unfold engage freeEngine
  cases s.running <;> cases s.engine <;> simp [Outcome.map, eq_comm]

theorem engage_eq_stuck_iff : s.engage limit = .stuck ↔ s.running = true := by
  unfold engage freeEngine
  cases s.running <;> cases s.engine <;> simp [Outcome.map]

/-- The engine is given to a parse that has asked for it, or the parse is turned away. -/
theorem happens_of_engage (asked : limit ∈ s.waiting) :
    (∀ t, s.engage limit = .done t → Happens s (.handedOver limit) t) ∧
      ∀ fault, s.engage limit = .refused fault →
        Happens s (.turnedAway limit) (s.withdraw limit) := by
  refine ⟨fun t given => ?_, fun fault refused => ?_⟩
  · obtain ⟨free, engine, present, rfl⟩ := engage_eq_done_iff.mp given
    exact .handedOver asked present free
  · exact .turnedAway asked (engage_eq_refused_iff.mp refused).2.1

theorem ask_eq_ok_iff : s.ask input = .ok t ↔
    input.length % 2 = 0 ∧ { s with waiting := s.limit :: s.waiting } = t := by
  unfold ask
  by_cases even : input.length % 2 = 0 <;> simp [even]

/-- Who asks for the engine and is given it at once has not waited. -/
theorem handOver_eq_done_iff : s.handOver input = .done t ↔
    input.length % 2 = 0 ∧ s.running = false ∧ ∃ engine, s.engine = some engine ∧
      { s with
        engine := some { engine with parses := engine.parses + 1, limit := s.limit }
        running := true } = t := by
  unfold handOver
  cases asks : s.ask input with
  | error fault =>
    have odd : input.length % 2 ≠ 0 := fun even => by
      rw [ask_eq_ok_iff.mpr ⟨even, rfl⟩] at asks
      cases asks
    simp [Outcome.ofExcept, Outcome.bind, odd]
  | ok asked =>
    obtain ⟨even, rfl⟩ := ask_eq_ok_iff.mp asks
    simp [engage_eq_done_iff, withdraw, even]

/-- A session that lives gives its engine to whoever comes with whole units, if nobody else
holds it. -/
theorem exists_handOver_of_free (sound : s.Sound) (alive : s.destroyed = false)
    (free : s.running = false) (whole : input.length % 2 = 0) :
    ∃ engine, s.engine = some engine ∧ s.handOver input = .done { s with
      engine := some { engine with parses := engine.parses + 1, limit := s.limit }
      running := true } := by
  obtain ⟨engine, present⟩ := Option.isSome_iff_exists.mp (sound.engine_alive alive)
  exact ⟨engine, present, handOver_eq_done_iff.mpr ⟨whole, free, engine, present, rfl⟩⟩

theorem happens_of_ask (asks : s.ask input = .ok t) : Happens s (.asked s.limit) t := by
  obtain ⟨-, rfl⟩ := ask_eq_ok_iff.mp asks
  exact .asked

/-- Who is given the engine has asked for it. -/
theorem history_of_handOver (given : s.handOver input = .done t) :
    History s [.asked s.limit, .handedOver s.limit] t := by
  obtain ⟨-, free, engine, present, rfl⟩ := handOver_eq_done_iff.mp given
  have got := (History.single .asked).next
    (.handedOver (List.mem_cons_self (a := s.limit) (l := s.waiting)) present free)
  simpa [withdraw] using got

/-- Who is given the engine at once has asked for it, and got it with the limit read then. -/
theorem exists_ask_of_handOver (given : s.handOver input = .done t) :
    ∃ asked, s.ask input = .ok asked ∧ asked.engage s.limit = .done t := by
  unfold handOver at given
  cases asks : s.ask input with
  | error fault =>
    rw [asks] at given
    cases given
  | ok asked =>
    rw [asks, Outcome.ofExcept_ok, Outcome.bind_done] at given
    exact ⟨asked, rfl, given⟩

theorem limit_of_handOver (given : s.handOver input = .done t) : t.limit = s.limit := by
  obtain ⟨-, -, engine, -, rfl⟩ := handOver_eq_done_iff.mp given
  rfl

end HostParsing.Session

namespace HostParsing.Bench

open Session (History Happens ask_eq_ok_iff engage_eq_done_iff engage_eq_refused_iff)

variable {ρ α β : Type} {b after : Bench} {mode : Mode} {source : Source} {company : Company α}
  {a : Admission} {input : Input}

/-- The engine has its part whenever the input is whole and nobody else holds the
engine. -/
theorem handOver_cases (s : Session) (input : Bytes) :
    (∃ fault, s.handOver input = .refused fault) ∨ s.handOver input = .stuck ∨
      ∃ t, s.handOver input = .done t := by
  cases s.handOver input with
  | refused fault => exact .inl ⟨fault, rfl⟩
  | stuck => exact .inr (.inl rfl)
  | done t => exact .inr (.inr ⟨t, rfl⟩)

section

variable {number : Nat} {bytes : Bytes} {old : Option Nat} {act : Behaviour ρ}

/-- A parse that the session refuses has changed nothing, not even if it has asked for the
engine. -/
theorem runEngine_of_refused {fault : Fault} (refused : b.session.handOver bytes = .refused fault) :
    b.runEngine number bytes old act = (b, .refused fault) := by
  unfold Session.handOver at refused
  cases asks : b.session.ask bytes with
  | error fault =>
    rw [asks] at refused
    cases refused
    rw [runEngine, asks]
  | ok asked =>
    rw [asks, Outcome.ofExcept_ok, Outcome.bind_done] at refused
    obtain ⟨-, rfl⟩ := ask_eq_ok_iff.mp asks
    simp only [runEngine, asks, runAsked, refused]
    simp [Session.withdraw]

/-- Who waits for the engine has asked for it. -/
theorem runEngine_of_stuck (stuck : b.session.handOver bytes = .stuck) (number : Nat)
    (old : Option Nat) (act : Behaviour ρ) :
    ∃ asked, b.session.ask bytes = .ok asked ∧
      b.runEngine number bytes old act = ({ b with session := asked }, .stuck) := by
  unfold Session.handOver at stuck
  cases asks : b.session.ask bytes with
  | error fault =>
    rw [asks] at stuck
    cases stuck
  | ok asked =>
    rw [asks, Outcome.ofExcept_ok, Outcome.bind_done] at stuck
    refine ⟨asked, rfl, ?_⟩
    simp only [runEngine, asks, runAsked, stuck]

/-- What becomes of a parse whose input the engine gets is what the engine comes to. -/
theorem runEngine_of_handOver {handed : Session} (given : b.session.handOver bytes = .done handed)
    (number : Nat) (old : Option Nat) (act : Behaviour ρ) :
    b.runEngine number bytes old act =
      conclude (Tree.parse (old.bind (b.trees[·]?)) bytes)
        (act number handed.limit { b with session := handed }) := by
  obtain ⟨asked, asks, engages⟩ := Session.exists_ask_of_handOver given
  simp only [runEngine, asks, runAsked, engages, Session.limit_of_handOver given]

end

/-! ## What the engine comes to -/

section

variable {ran : Bench × Verdict × ρ} {tree : Tree}

@[simp] theorem desk_conclude : (conclude tree ran).1.desk = ran.1.desk := by
  obtain ⟨after, verdict, report⟩ := ran
  cases verdict <;> rfl

theorem session_conclude : (conclude tree ran).1.session =
    if ran.2.1 = .never then ran.1.session else ran.1.session.takeBack := by
  obtain ⟨after, verdict, report⟩ := ran
  cases verdict <;> rfl

/-- A parse is answered if its engine comes to anything, and else does not return. -/
theorem outcome_conclude : (conclude tree ran).2 =
    if ran.2.1 = .never then .stuck
    else .done (if ran.2.1 = .tree then some tree else none, ran.2.2) := by
  obtain ⟨after, verdict, report⟩ := ran
  cases verdict <;> rfl

end

/-! ## The end of a parse -/

theorem runRound_of_locked (held : b.isLocked input = true) (old : Option Nat)
    (act : Behaviour ρ) : b.runRound input old act = (b, .stuck) := by
  rw [runRound, holding_of_locked held]

/-- A parse in its own round ends the active round when it returns. -/
theorem runRound_eq (b : Bench) (input : Input) (old : Option Nat) (act : Behaviour ρ) :
    let ran := b.holding input fun held =>
      held.runEngine b.session.begun (held.readInput input) old act
    b.runRound input old act =
      (if ran.2.isStuck then ran.1 else { ran.1 with session := ran.1.session.leaveRound },
        ran.2) := by
  intro ran
  rw [runRound, show b.holding input _ = ran from rfl]
  obtain ⟨after, outcome⟩ := ran
  cases outcome <;> rfl

/-- A round whose parse is answered is over. -/
theorem runRound_of_done {old : Option Nat} {act : Behaviour ρ} {answer : Option Tree × ρ}
    (ran : (b.holding input fun held =>
      held.runEngine b.session.begun (held.readInput input) old act) = (after, .done answer)) :
    b.runRound input old act =
      ({ after with session := after.session.leaveRound }, .done answer) := by
  rw [runRound, ran]

/-- A parse in its own round is the engine's part, and the end of the active round when
that returns. -/
theorem runRound_of_free (free : b.isLocked input = false) (old : Option Nat)
    (act : Behaviour ρ) :
    let ran := (b.lock input).runEngine b.session.begun (b.readInput input) old act
    (b.runRound input old act).2 = ran.2 ∧
      (b.runRound input old act).1.desk = ran.1.desk ∧
      (b.runRound input old act).1.session =
        if ran.2.isStuck then ran.1.session else ran.1.session.leaveRound := by
  obtain ⟨outcome, after⟩ := holding_of_free free fun held =>
    held.runEngine b.session.begun (held.readInput input) old act
  simp only [readInput_lock] at outcome after
  rw [runRound_eq]
  simp only [outcome, after, true_and]
  split <;> exact ⟨rfl, rfl⟩

/-- A parse within the active round runs in that. -/
theorem holding_runActive {number : Nat} (active : b.session.activeRound = .ok number)
    (old : Option Nat) (act : Behaviour ρ) :
    (b.holding input fun held => held.runActive input old act) =
      b.holding input fun held => held.runEngine number (held.readInput input) old act :=
  holding_congr (by rw [runActive, session_lock, active])

/-- Outside a round a parse does nothing, though it may have to wait for its buffer before
it is refused. -/
theorem holding_runActive_of_error {fault : Fault}
    (inactive : b.session.activeRound = .error fault) (old : Option Nat) (act : Behaviour ρ) :
    (b.holding input fun held => held.runActive input old act) =
      (b, if b.isLocked input then .stuck else .refused fault) := by
  have refused : (b.lock input).runActive input old act = (b.lock input, .refused fault) := by
    rw [runActive, session_lock, inactive]
  rw [holding, refused]
  split
  · rfl
  · exact congrArg (·, _) (unlock_lock b input)

/-- A parse within the active round is the engine's part. -/
theorem parse_withinRound (admitted : b.admission .withinRound source company = some a)
    (old : Option Nat) (act : Behaviour ρ) :
    let ran := a.bench.runEngine a.number a.input old act
    let whole := b.parse .withinRound source old act company
    whole.2.1 = ran.2 ∧ whole.1.desk = ran.1.desk ∧ whole.1.session = ran.1.session := by
  obtain ⟨input, settled, active, free, e⟩ := admission_withinRound admitted
  have outcome := (holding_of_free free fun held =>
    held.runEngine a.number (held.readInput input) old act).1
  have keeps {γ : Type} (f : Bench → γ) (keeps : ∀ b : Bench, f (b.unlock input) = f b) :=
    holding_keeps f keeps free fun held => held.runEngine a.number (held.readInput input) old act
  simp only [readInput_lock] at outcome keeps
  simp only [parse, parseWithin, settled, holding_runActive active]
  rw [e]
  exact ⟨outcome, keeps (·.desk) (fun _ => rfl), keeps (·.session) (fun _ => rfl)⟩

/-- A parse of a whole round is the engine's part, and the end of whichever round
is active then. -/
theorem parse_wholeRound (admitted : b.admission .wholeRound source company = some a)
    (old : Option Nat) (act : Behaviour ρ) :
    let ran := a.bench.runEngine a.number a.input old act
    let whole := b.parse .wholeRound source old act company
    whole.2.1 = ran.2 ∧ whole.1.desk = ran.1.desk ∧
      whole.1.session = if ran.2.isStuck then ran.1.session else ran.1.session.leaveRound := by
  obtain ⟨input, settled, ⟨-, admits⟩ | ⟨waits, admits⟩⟩ := admission_wholeRound admitted
  · obtain ⟨entered, free, e⟩ := entry_spec admits
    simp only [parse, parseRound, settled, entered]
    rw [e]
    exact runRound_of_free (b := { b with session := b.session.install }) free old act
  · obtain ⟨entered, free, e⟩ := entry_spec admits
    simp only [parse, parseRound, settled, waits, entered]
    rw [e]
    exact runRound_of_free
      (b := { (company b).1 with session := (company b).1.session.install }) free old act

/-! ## Cancelling and waiting -/

theorem cancelAndWait_of_idle (idle : b.session.round = none) (company : Company α) :
    b.cancelAndWait company = (b, .done false, none) := by
  rw [cancelAndWait, idle]

/-- Whether the round is over then or not, what is left is what the others leave. -/
theorem cancelAndWait_of_active {number : Nat} (active : b.session.round = some number)
    (company : Company α) :
    let ran := company { b with session := (b.session.cancel number).2 }
    (b.cancelAndWait company).1 = ran.1 ∧ (b.cancelAndWait company).2.2 = some ran.2 := by
  simp only [cancelAndWait, active]
  split
  · exact ⟨rfl, rfl⟩
  · exact ⟨rfl, rfl⟩

end HostParsing.Bench
