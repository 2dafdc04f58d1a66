import HostParsing.Session.Basic
/-!
# The history of a session

Whatever clients and parses do, a session changes in a few ways (`Happens`), and
its history is the list of these events (`History`). A call that waits for the engine
is two events, and any others may come in between: a parse asks for the engine and is
handed over to it, or turned away; a session is destroyed and its engine released.

`Sound` is what every history from the start keeps (`History.sound`): the active round
is the one that began last and its token has not expired, while the tokens of all other
rounds have. A destroyed session has no round, and no engine unless the call that
destroyed it still waits for that.

From there a history tells what became of a round. It is active until it is ended
(`History.round_iff_not_ended`), and a cancellation that was heeded shows at its
token exactly as long (`History.token_of_cancelled`).
-/

namespace HostParsing.Session

/-- What can happen to a session. -/
inductive Event
  | began (number : Nat)
  | ended (number : Nat)
  /-- A token was cancelled, and whether it heeded that. -/
  | cancelled (number : Nat) (heeded : Bool)
  | limited (limit : Option Nat)
  /-- A parse asked for the engine, and read the time limit. -/
  | asked (limit : Option Nat)
  /-- The engine got an input, with the time limit that its parse had read. -/
  | handedOver (limit : Option Nat)
  /-- A parse that had asked for the engine found that it was given up. -/
  | turnedAway (limit : Option Nat)
  | tookBack
  | reset
  | destroyed
  /-- A destroyed session gave its engine up. -/
  | released
deriving DecidableEq, Repr

/-- One event and what it makes of a session. -/
inductive Happens (s : Session) : Event → Session → Prop
  | began (alive : s.destroyed = false) (idle : s.round = none) :
    Happens s (.began (s.begun + 1)) s.install
  | ended {number : Nat} (active : s.round = some number) :
    Happens s (.ended number) { s.setToken number .expired with round := none }
  | cancelled (number : Nat) :
    Happens s (.cancelled number (s.token number).heeds) (s.cancel number).2
  | limited (alive : s.destroyed = false) (limit : Option Nat) :
    Happens s (.limited (limit.filter (· ≠ 0))) { s with limit := limit.filter (· ≠ 0) }
  | asked : Happens s (.asked s.limit) { s with waiting := s.limit :: s.waiting }
  | handedOver {limit : Option Nat} {engine : Engine} (asked : limit ∈ s.waiting)
    (present : s.engine = some engine) (free : s.running = false) :
    Happens s (.handedOver limit) { s.withdraw limit with
      engine := some { engine with parses := engine.parses + 1, limit }
      running := true }
  | turnedAway {limit : Option Nat} (asked : limit ∈ s.waiting) (gone : s.engine = none) :
    Happens s (.turnedAway limit) (s.withdraw limit)
  | tookBack : Happens s .tookBack s.takeBack
  | reset {engine : Engine} (present : s.engine = some engine) (free : s.running = false) :
    Happens s .reset { s with engine := some { engine with resets := engine.resets + 1 } }
  | destroyed (alive : s.destroyed = false) (idle : s.round = none) :
    Happens s .destroyed { s with destroyed := true, leaving := true }
  | released (leaving : s.leaving = true) (free : s.running = false) :
    Happens s .released { s with leaving := false, engine := none }

/-- The events that lead from one session to another, in their order. -/
inductive History (s : Session) : List Event → Session → Prop
  | nil : History s [] s
  | next {events : List Event} {met : Session} {event : Event} {t : Session}
      (before : History s events met) (step : Happens met event t) :
    History s (events ++ [event]) t

/-- What holds of a session at all times. -/
structure Sound (s : Session) : Prop where
  size_tokens : s.tokens.size = s.begun + 1
  /-- The active round began last. -/
  round_last : ∀ {number : Nat}, s.round = some number → number = s.begun ∧ number ≠ 0
  token_active : ∀ {number : Nat}, s.round = some number → s.token number ≠ .expired
  token_other : ∀ {number : Nat}, number ≠ 0 → s.round ≠ some number → s.token number = .expired
  destroyed_idle : s.destroyed = true → s.round = none
  leaving_destroyed : s.leaving = true → s.destroyed = true
  engine_none_iff : s.engine = none ↔ s.destroyed = true ∧ s.leaving = false
  running_engine : s.running = true → s.engine.isSome = true

variable {s t u : Session} {event : Event} {events more : List Event} {g k : Nat}

/-! ## Single events -/

theorem token_setToken (s : Session) (number k : Nat) (token : Token) :
    (s.setToken number token).token k =
      if k = number ∧ number < s.tokens.size then token else s.token k := by
  simp only [setToken, Session.token, Array.getElem?_setIfInBounds]
  by_cases same : number = k
  · subst same
    by_cases inside : number < s.tokens.size
    · simp [inside]
    · simp [inside]
  · simp [same, Ne.symm same]

theorem token_ended (s : Session) (number k : Nat) :
    ({ s.setToken number .expired with round := none } : Session).token k =
      if k = number ∧ number < s.tokens.size then .expired else s.token k :=
  token_setToken s number k .expired

theorem token_cancel (s : Session) (number k : Nat) :
    (s.cancel number).2.token k =
      if k = number ∧ number < s.tokens.size then (s.token number).cancel else s.token k :=
  token_setToken s number k (s.token number).cancel

theorem token_install (s : Session) (k : Nat) :
    s.install.token k = if k = s.tokens.size then .active else s.token k := by
  simp only [install, token, Array.getElem?_push]
  split <;> simp

theorem token_beyond (beyond : s.tokens.size ≤ k) : s.token k = .expired := by
  rw [token, Array.getElem?_eq_none beyond]
  rfl

/-- The token of an active round can be set. -/
theorem Sound.round_lt (sound : s.Sound) (active : s.round = some g) : g < s.tokens.size := by
  have last := (sound.round_last active).1
  have size := sound.size_tokens
  omega

theorem sound_start (limit : Option Nat) : (start limit).Sound where
  size_tokens := rfl
  round_last active := by cases active
  token_active active := by cases active
  token_other {number} pos _ := token_beyond (Nat.pos_of_ne_zero pos)
  destroyed_idle gone := by cases gone
  leaving_destroyed leaving := by cases leaving
  engine_none_iff := by simp [start]
  running_engine running := by cases running

theorem Sound.install (sound : s.Sound) (alive : s.destroyed = false) (idle : s.round = none) :
    s.install.Sound where
  size_tokens := by simp only [Session.install, Array.size_push, sound.size_tokens]
  round_last active := by
    cases active
    exact ⟨rfl, Nat.succ_ne_zero _⟩
  token_active active := by
    cases active
    rw [token_install, if_pos sound.size_tokens.symm]
    decide
  token_other {number} pos other := by
    have ne : number ≠ s.tokens.size := fun e => other (by rw [e, sound.size_tokens]; rfl)
    rw [token_install, if_neg ne]
    exact sound.token_other pos (by simp [idle])
  destroyed_idle gone := by
    rw [show s.install.destroyed = s.destroyed from rfl, alive] at gone
    cases gone
  leaving_destroyed := sound.leaving_destroyed
  engine_none_iff := sound.engine_none_iff
  running_engine := sound.running_engine

theorem Sound.ended (sound : s.Sound) (active : s.round = some g) :
    ({ s.setToken g .expired with round := none } : Session).Sound where
  size_tokens := by simp only [setToken, Array.size_setIfInBounds, sound.size_tokens]
  round_last active := by cases active
  token_active active := by cases active
  token_other {number} pos _ := by
    rw [token_ended]
    split
    · rfl
    · rename_i other
      refine sound.token_other pos fun e => other ?_
      rw [active, Option.some.injEq] at e
      exact ⟨e.symm, sound.round_lt active⟩
  destroyed_idle _ := rfl
  leaving_destroyed := sound.leaving_destroyed
  engine_none_iff := sound.engine_none_iff
  running_engine := sound.running_engine

theorem Sound.cancelled (sound : s.Sound) (number : Nat) : (s.cancel number).2.Sound where
  size_tokens := by simp only [cancel, setToken, Array.size_setIfInBounds, sound.size_tokens]
  round_last := sound.round_last
  token_active {k} active := by
    have unexpired : s.token k ≠ .expired := sound.token_active active
    rw [token_cancel]
    split
    · rename_i same
      rw [same.1] at unexpired
      cases e : s.token number <;> simp_all [Token.cancel]
    · exact unexpired
  token_other {k} pos other := by
    have expired := sound.token_other pos other
    rw [token_cancel]
    split
    · rename_i same
      rw [← same.1, expired]
      rfl
    · exact expired
  destroyed_idle := sound.destroyed_idle
  leaving_destroyed := sound.leaving_destroyed
  engine_none_iff := sound.engine_none_iff
  running_engine := sound.running_engine

/-- A destroyed session has no round. -/
theorem Sound.alive_of_round (sound : s.Sound) (active : s.round = some k) :
    s.destroyed = false := by
  refine Bool.eq_false_iff.mpr fun gone => ?_
  rw [sound.destroyed_idle gone] at active
  cases active

theorem Sound.engine_alive (sound : s.Sound) (alive : s.destroyed = false) :
    s.engine.isSome = true := by
  refine Option.isSome_iff_ne_none.mpr fun none => ?_
  rw [(sound.engine_none_iff.mp none).1] at alive
  cases alive

/-- A session whose engine is replaced by another one is sound as before. -/
theorem Sound.rearmed (sound : s.Sound) {engine : Engine} (present : s.engine = some engine)
    (next : Engine) (running : Bool) :
    ({ s with engine := some next, running } : Session).Sound :=
  { sound with
    engine_none_iff := by
      have held : s.engine ≠ none := present ▸ Option.some_ne_none engine
      simpa using (not_congr sound.engine_none_iff).mp held
    running_engine := fun _ => rfl }

theorem Happens.sound (step : Happens s event t) (sound : s.Sound) : t.Sound := by
  cases step with
  | began alive idle => exact sound.install alive idle
  | ended active => exact sound.ended active
  | cancelled number => exact sound.cancelled number
  | limited | asked | turnedAway => exact { sound with }
  | handedOver _ present =>
    have armed := sound.rearmed present
    exact { armed _ true with }
  | tookBack =>
    exact { sound with
      running_engine := fun running => by cases running }
  | reset present free => exact sound.rearmed present _ s.running
  | destroyed alive idle =>
    exact { sound with
      destroyed_idle := fun _ => idle
      leaving_destroyed := fun _ => rfl
      engine_none_iff := by
        have present := Option.isSome_iff_ne_none.mp (sound.engine_alive alive)
        simpa using present }
  | released leaving free =>
    exact { sound with
      leaving_destroyed := fun leaving => by cases leaving
      engine_none_iff := by simpa using sound.leaving_destroyed leaving
      running_engine := fun running => absurd (free.symm.trans running) Bool.false_ne_true }

/-! ## Histories -/

theorem History.single (step : Happens s event t) : History s [event] t := .next .nil step

theorem History.trans (first : History s events t) (rest : History t more u) :
    History s (events ++ more) u := by
  induction rest with
  | nil => rwa [List.append_nil]
  | next _ step ih => exact List.append_assoc .. ▸ ih.next step

theorem History.sound (history : History s events t) (sound : s.Sound) : t.Sound := by
  induction history with
  | nil => exact sound
  | next _ step ih => exact step.sound ih

/-- The last event of a history. -/
theorem History.of_append_singleton (history : History s (events ++ [event]) t) :
    ∃ met, History s events met ∧ Happens met event t := by
  generalize whole : events ++ [event] = more at history
  cases history with
  | nil => simp at whole
  | next first step =>
    obtain ⟨rfl, same⟩ := List.append_inj' whole rfl
    cases same
    exact ⟨_, first, step⟩

/-- The number of the round that an event begins. -/
def Event.began? : Event → Option Nat
  | .began number => some number
  | _ => none

/-- The numbers of the rounds that began, in their order. -/
def begins (events : List Event) : List Nat := events.filterMap Event.began?

theorem begins_append (events more : List Event) :
    begins (events ++ more) = begins events ++ begins more :=
  List.filterMap_append

theorem Happens.begins_eq (step : Happens s event t) :
    t.begun = s.begun + (begins [event]).length ∧
      begins [event] = List.range' (s.begun + 1) (begins [event]).length := by
  cases step <;> exact ⟨rfl, rfl⟩

/-- Rounds are numbered on from those that have begun, none left out and none
twice. -/
theorem History.begins_eq (history : History s events t) :
    t.begun = s.begun + (begins events).length ∧
      begins events = List.range' (s.begun + 1) (begins events).length := by
  induction history with
  | nil => exact ⟨rfl, rfl⟩
  | next before step ih =>
    obtain ⟨count, numbers⟩ := ih
    obtain ⟨count', numbers'⟩ := step.begins_eq
    rw [begins_append, List.length_append]
    constructor
    · rw [count', count, Nat.add_assoc]
    · rw [← List.range'_append_1, ← numbers, Nat.add_right_comm, ← count, ← numbers']

/-! ## What became of a round -/

/-- A round stays active until it is ended. -/
theorem History.round_of_not_ended (history : History s events t) (active : s.round = some g)
    (open_ : .ended g ∉ events) : t.round = some g := by
  induction history with
  | nil => exact active
  | next before step ih =>
    rw [List.mem_append, List.mem_singleton, not_or] at open_
    have met := ih open_.1
    cases step with
    | began alive idle => rw [met] at idle; cases idle
    | ended active =>
      rw [met, Option.some.injEq] at active
      exact absurd (congrArg _ active) open_.2
    | destroyed _ idle => rw [met] at idle; cases idle
    | _ => exact met

/-- A round that has begun and is not active never is again. -/
theorem Happens.not_round (step : Happens s event t) (past : g ≤ s.begun ∧ s.round ≠ some g) :
    g ≤ t.begun ∧ t.round ≠ some g := by
  cases step with
  | began alive idle =>
    refine ⟨Nat.le_succ_of_le past.1, fun e => ?_⟩
    simp only [install, Option.some.injEq] at e
    omega
  | ended active => exact ⟨past.1, nofun⟩
  | _ => exact past

theorem History.not_round_of_ended (history : History s events t) (sound : s.Sound)
    (ended : .ended g ∈ events) : g ≤ t.begun ∧ t.round ≠ some g := by
  induction history with
  | nil => cases ended
  | next before step ih =>
    rcases List.mem_append.mp ended with earlier | last
    · exact step.not_round (ih earlier)
    · cases List.mem_singleton.mp last
      cases step with
      | ended active =>
        have met := before.sound sound
        exact ⟨Nat.le_of_eq (met.round_last active).1, nofun⟩

/-- A round is active exactly until it is ended. -/
theorem History.round_iff_not_ended (history : History s events t) (sound : s.Sound)
    (active : s.round = some g) : t.round = some g ↔ .ended g ∉ events :=
  ⟨fun e ended => (history.not_round_of_ended sound ended).2 e, history.round_of_not_ended active⟩

/-- A round that is active has begun. -/
theorem History.began_of_round (history : History s events t) (active : t.round = some k)
    (other : s.round ≠ some k) : .began k ∈ events := by
  induction history with
  | nil => exact absurd active other
  | next before step ih =>
    rw [List.mem_append]
    cases step with
    | began alive idle =>
      cases active
      exact .inr (List.mem_singleton_self _)
    | ended => cases active
    | _ => exact .inl (ih active)

/-! ## What became of a cancellation -/

/-- A token that is not active never is again. -/
theorem Happens.token_ne_active (step : Happens s event t) (sound : s.Sound)
    (past : g ≤ s.begun ∧ s.token g ≠ .active) : g ≤ t.begun ∧ t.token g ≠ .active := by
  cases step with
  | began alive idle =>
    refine ⟨Nat.le_succ_of_le past.1, ?_⟩
    rw [token_install, if_neg (by have := sound.size_tokens; omega)]
    exact past.2
  | ended active =>
    refine ⟨past.1, ?_⟩
    rw [token_ended]
    split
    · decide
    · exact past.2
  | cancelled number =>
    refine ⟨past.1, ?_⟩
    rw [token_cancel]
    split
    · cases s.token number <;> decide
    · exact past.2
  | _ => exact past

/-- A token that heeds a cancellation is cancelled from then on. -/
theorem Sound.token_cancel (sound : s.Sound) (heeds : (s.token g).heeds = true) :
    g ≤ (s.cancel g).2.begun ∧ (s.cancel g).2.token g ≠ .active := by
  have inside : g < s.tokens.size := Nat.lt_of_not_le fun beyond => by
    rw [token_beyond beyond] at heeds
    cases heeds
  rw [sound.size_tokens] at inside
  refine ⟨Nat.le_of_lt_succ inside, ?_⟩
  rw [Session.token_cancel, if_pos ⟨rfl, sound.size_tokens ▸ inside⟩]
  cases s.token g <;> decide

theorem History.token_ne_active_of_cancelled (history : History s events t) (sound : s.Sound)
    (heeded : .cancelled g true ∈ events) : g ≤ t.begun ∧ t.token g ≠ .active := by
  induction history with
  | nil => cases heeded
  | next before step ih =>
    have met := before.sound sound
    rcases List.mem_append.mp heeded with earlier | last
    · exact step.token_ne_active met (ih earlier)
    · have event := List.mem_singleton.mp last
      cases step with
      | cancelled number =>
        simp only [Event.cancelled.injEq] at event
        obtain ⟨rfl, heeds⟩ := event
        exact met.token_cancel heeds.symm
      | _ => cases event

/-- A cancellation that was heeded shows at the token as long as the round is
active. -/
theorem History.token_of_cancelled (history : History s events t) (sound : s.Sound) (pos : g ≠ 0)
    (heeded : .cancelled g true ∈ events) : t.token g = .cancelled ↔ t.round = some g := by
  have after := history.sound sound
  constructor
  · intro cancelled
    by_cases active : t.round = some g
    · exact active
    · rw [after.token_other pos active] at cancelled
      cases cancelled
  · intro active
    have unexpired := after.token_active active
    have met := (history.token_ne_active_of_cancelled sound heeded).2
    cases e : t.token g with
    | active => exact absurd e met
    | cancelled => rfl
    | expired => exact absurd e unexpired

/-- A token becomes cancelled by a cancellation that it heeds. -/
theorem Happens.cancelled_of_token (step : Happens s event t)
    (fresh : s.token g ≠ .cancelled) (cancelled : t.token g = .cancelled) :
    event = .cancelled g true ∧ s.token g = .active := by
  cases step with
  | began alive idle =>
    rw [token_install] at cancelled
    split at cancelled
    · cases cancelled
    · exact absurd cancelled fresh
  | ended active =>
    rw [token_ended] at cancelled
    split at cancelled
    · cases cancelled
    · exact absurd cancelled fresh
  | cancelled number =>
    rw [token_cancel] at cancelled
    split at cancelled
    · rename_i same
      obtain ⟨rfl, -⟩ := same
      cases e : s.token g with
      | active => exact ⟨rfl, rfl⟩
      | cancelled => exact absurd e fresh
      | expired =>
        rw [e] at cancelled
        cases cancelled
    · exact absurd cancelled fresh
  | _ => exact absurd cancelled fresh

/-- A token that is cancelled at last and was not at first has been cancelled
meanwhile, while its round was active. -/
theorem History.exists_cancelled (history : History s events t) (sound : s.Sound) (pos : g ≠ 0)
    (fresh : s.token g ≠ .cancelled) (cancelled : t.token g = .cancelled) :
    ∃ before met after, events = before ++ .cancelled g true :: after ∧
      History s before met ∧ met.round = some g := by
  induction history with
  | nil => exact absurd cancelled fresh
  | @next past met event t history step ih =>
    by_cases already : met.token g = .cancelled
    · obtain ⟨before, first, after, rfl, history', active⟩ := ih already
      exact ⟨before, first, after ++ [event], by simp, history', active⟩
    · obtain ⟨rfl, active⟩ := step.cancelled_of_token already cancelled
      refine ⟨past, met, [], rfl, history, Classical.byContradiction fun other => ?_⟩
      rw [(history.sound sound).token_other pos other] at active
      cases active

/-- The token of a round that begins is active. -/
theorem Happens.token_of_began (step : Happens s (.began g) t) (sound : s.Sound) :
    t.token g = .active := by
  cases step with
  | began alive idle => rw [token_install, if_pos sound.size_tokens.symm]

end HostParsing.Session
