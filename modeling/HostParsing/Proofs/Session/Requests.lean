import HostParsing.Proofs.Session.Calls
/-!
# Requests to cancel

A request to cancel goes to the round that is active when it is made, and to no other:
its token always heeds it, and a second request does nothing more
(`requestCancellation_of_active`, `requestCancellation_flagged`). Who waits for the end
of that round as well leaves everything as the others make it who find the round
cancelled. So it is answered once the round is over, whichever round is active then
(`request_meets_one_round`).
-/

namespace HostParsing.Session

variable {s : Session} {g : Nat}

/-- The session with a round flagged as cancelled. -/
def flag (s : Session) (number : Nat) : Session := s.setToken number .cancelled

theorem token_flag (sound : s.Sound) (active : s.round = some g) (k : Nat) :
    (s.flag g).token k = if k = g then .cancelled else s.token k := by
  rw [flag, token_setToken]
  simp [sound.round_lt active]

/-- The token of the active round heeds a cancellation, which flags the round. -/
theorem cancel_of_active (sound : s.Sound) (active : s.round = some g) :
    s.cancel g = (true, s.flag g) := by
  have unexpired := sound.token_active active
  rw [cancel, flag]
  cases e : s.token g with
  | active => rfl
  | cancelled => rfl
  | expired => exact absurd e unexpired

theorem requestCancellation_of_idle (idle : s.round = none) :
    s.requestCancellation = (false, s) := by
  rw [requestCancellation, idle]

theorem requestCancellation_of_active (sound : s.Sound) (active : s.round = some g) :
    s.requestCancellation = (true, s.flag g) := by
  simp only [requestCancellation, active]
  exact cancel_of_active sound active

theorem Sound.flag (sound : s.Sound) (active : s.round = some g) : (s.flag g).Sound := by
  have cancelled := sound.cancelled g
  rwa [cancel_of_active sound active] at cancelled

/-- A second request finds the round flagged and does nothing. -/
theorem requestCancellation_flagged (sound : s.Sound) (active : s.round = some g) :
    (s.flag g).requestCancellation = (true, s.flag g) := by
  have again : (s.flag g).flag g = s.flag g := by
    simp only [flag, setToken, Array.setIfInBounds_setIfInBounds]
  have flagged := requestCancellation_of_active (sound.flag active) active
  rwa [again] at flagged

end HostParsing.Session

namespace HostParsing.Bench

open Session (History Event)

variable {α : Type} {b : Bench} {g : Nat} {events : List Event}

/-- Who waits for the end of a round goes on when another round is active, or none. -/
theorem cancelAndWait_outcome (sound : b.session.Sound) (active : b.session.round = some g)
    (company : Company α) :
    b.cancelAndWait company =
      let ran := company { b with session := b.session.flag g }
      (ran.1, if ran.1.session.round = some g then .stuck else .done true, some ran.2) := by
  simp only [cancelAndWait, active, Session.cancel_of_active sound active]
  split <;> rfl

end HostParsing.Bench

namespace HostParsing.Session

variable {s t : Session} {g k : Nat} {events : List Event}

/-- The token of a round that is over has expired. -/
theorem History.token_of_ended (history : History s events t) (sound : s.Sound)
    (active : s.round = some g) (ended : .ended g ∈ events) : t.token g = .expired := by
  refine (history.sound sound).token_other (sound.round_last active).2 ?_
  exact (history.not_round_of_ended sound ended).2

/-- A round that begins in a history is cancelled at its end only if it was cancelled
there, while it was active. -/
theorem History.exists_cancelled_of_began (history : History s events t) (sound : s.Sound)
    (began : .began k ∈ events) (cancelled : t.token k = .cancelled) :
    ∃ before met after, events = before ++ .cancelled k true :: after ∧
      History s before met ∧ met.round = some k := by
  have numbered : k ∈ begins events := List.mem_filterMap.mpr ⟨_, began, rfl⟩
  rw [history.begins_eq.2, List.mem_range'_1] at numbered
  have fresh : s.token k ≠ .cancelled := by
    rw [token_beyond (by rw [sound.size_tokens]; omega)]
    decide
  exact history.exists_cancelled sound (by omega) fresh cancelled

/-- A request to cancel is heeded exactly if a round is active, and else changes
nothing. It flags that round and no other, and a second one changes nothing. Who also
waits is answered alike, as soon as the round has ended and not before; its token has
expired then, and everything is as the others leave it who found the round flagged. So
the rounds that have begun since are as they make them: none is cancelled but by them,
and none is waited for. The others may be anyone of whom a history is known, and clients
who make a list of calls are. -/
theorem request_meets_one_round {limit : Option Nat} {b : Bench}
    (reached : (Bench.start limit).Leads b) (others : Others) :
    let request := Call.requestCancellation.run others b
    let waited := Call.cancelAndWait.run others b
    request.2 = (.done (.cancelled b.session.round.isSome), none) ∧
      (∀ answer, waited.2.1 = .done answer → answer = .cancelled b.session.round.isSome) ∧
      (b.session.round = none → request.1 = b ∧ waited = (b, .done (.cancelled false), none)) ∧
      ∀ g, b.session.round = some g →
        let flagged : Bench := { b with session := b.session.flag g }
        (b.session.token g).heeds = true ∧
          request.1 = flagged ∧
          (∀ k, flagged.session.token k = if k = g then .cancelled else b.session.token k) ∧
          Call.requestCancellation.run others flagged = (flagged, .done (.cancelled true), none) ∧
          waited.1 = (others flagged).1 ∧ waited.2.2 = some (others flagged).2 ∧
          (∀ calls, others = runAll calls → flagged.Leads waited.1) ∧
          ∀ events, History flagged.session events waited.1.session →
            (.ended g ∉ events → waited.2.1 = .stuck) ∧
            (.ended g ∈ events →
              waited.2.1 = .done (.cancelled true) ∧ waited.1.session.token g = .expired ∧
                ∀ k, .began k ∈ events → waited.1.session.token k = .cancelled →
                  ∃ before met after, events = before ++ .cancelled k true :: after ∧
                    History flagged.session before met ∧ met.round = some k) := by
  intro request waited
  have sound := reached.sound
  cases active : b.session.round with
  | none =>
    have asked : request = (b, .done (.cancelled false), none) := by
      simp only [request, Call.run, requestCancellation_of_idle active, atOnce]
    have answered : waited = (b, .done (.cancelled false), none) := by
      simp only [waited, Call.run, Bench.cancelAndWait_of_idle active, Outcome.map_done]
    refine ⟨by rw [asked]; rfl, fun answer done => ?_, fun _ => ⟨by rw [asked], answered⟩,
      fun g some => by cases some⟩
    rw [answered] at done
    exact (Outcome.done.inj done).symm
  | some g =>
    let flagged : Bench := { b with session := b.session.flag g }
    have asked : request = (flagged, .done (.cancelled true), none) := by
      simp only [request, Call.run, requestCancellation_of_active sound active, atOnce, flagged]
    have ran : waited = ((others flagged).1,
        if (others flagged).1.session.round = some g then .stuck else .done (.cancelled true),
        some (others flagged).2) := by
      simp only [waited, Call.run, Bench.cancelAndWait_outcome sound active]
      split <;> rfl
    refine ⟨by rw [asked]; rfl, fun answer done => ?_, fun none => (by cases none),
      fun g' same => ?_⟩
    · rw [ran] at done
      split at done
      · cases done
      · exact (Outcome.done.inj done).symm
    obtain rfl : g = g' := Option.some.inj same
    refine ⟨congrArg Prod.fst (cancel_of_active sound active), by rw [asked],
      token_flag sound active, ?_, by rw [ran], by rw [ran], fun calls same => ?_,
      fun events history => ?_⟩
    · simp only [Call.run, requestCancellation_flagged sound active, atOnce]
    · rw [ran, same]
      exact runAll_leads calls flagged
    -- The call goes on exactly if the round is over in what the others leave.
    have sound' : flagged.session.Sound := sound.flag active
    have lasts := history.round_iff_not_ended sound' active
    refine ⟨fun open_ => ?_, fun ended => ⟨?_, history.token_of_ended sound' active ended,
      fun k began => history.exists_cancelled_of_began sound' began⟩⟩
    · have still := lasts.mpr open_
      rw [ran] at still ⊢
      rw [if_pos still]
    · have past : waited.1.session.round ≠ some g := fun still => lasts.mp still ended
      rw [ran] at past ⊢
      rw [if_neg past]

/-- The round is ended while the call waits, and another is begun, which is active when
the call is answered. -/
theorem request_meets_one_round_next :
    let b : Bench := { Bench.start none with session := (start none).install }
    let waited := Call.cancelAndWait.run (fun b => runAll [.endRound, .beginRound] b) b
    waited.2.1 = .done (.cancelled true) ∧ waited.1.session.token 1 = .expired ∧
      waited.1.session.round = some 2 ∧ waited.1.session.token 2 = .active := by
  intro b waited
  have reached : (Bench.start none).Leads b := .of_happens (.began rfl rfl)
  have meanwhile : History (b.session.flag 1) [.ended 1, .began 2] waited.1.session :=
    (History.single (.ended rfl)).next (.began rfl rfl)
  obtain ⟨-, -, -, active⟩ :=
    request_meets_one_round reached (fun b => runAll [.endRound, .beginRound] b)
  obtain ⟨-, -, -, -, -, -, -, outcome⟩ := active 1 rfl
  obtain ⟨answered, expired, -⟩ := (outcome _ meanwhile).2 (by decide)
  exact ⟨answered, expired, rfl, rfl⟩

end HostParsing.Session
