import HostParsing.Proofs.Session.Calls
/-!
# The end of a whole round

A parse of a whole round ends whichever round is active when the engine returns.
Its own round is over then in any case. Another round is ended exactly if it is
the active one, which takes both an end of the parse's own round and the begin of
the other while the parse runs (`token_after_wholeRound`).
-/

namespace HostParsing.Session

variable {s : Session} {k : Nat}

/-- Only the token of the active round expires at its end. -/
theorem token_leaveRound (sound : s.Sound) (k : Nat) :
    s.leaveRound.token k = if s.round = some k then .expired else s.token k := by
  unfold leaveRound endRound
  cases active : s.round with
  | none => simp
  | some number =>
    have inside := sound.round_lt active
    simp only [token_ended]
    by_cases same : k = number
    · subst same
      rw [if_pos ⟨rfl, inside⟩, if_pos rfl]
    · rw [if_neg fun e => same e.1, if_neg fun e => same (Option.some.inj e).symm]

/-- What the end of the active round changes of the tokens. -/
theorem expired_by_leaveRound_iff (sound : s.Sound) (k : Nat) :
    (s.token k ≠ .expired ∧ s.leaveRound.token k = .expired) ↔ s.round = some k := by
  rw [token_leaveRound sound]
  constructor
  · intro ⟨unexpired, expired⟩
    split at expired
    · assumption
    · exact absurd expired unexpired
  · intro active
    rw [if_pos active]
    exact ⟨sound.token_active active, rfl⟩

end HostParsing.Session

namespace HostParsing.Bench

open Session (History Report runScript runScript_leads)

/-- When a parse of a whole round returns, its own round is over. Besides, it has
ended a round exactly if that was active when the engine returned; another round
than its own can only be so after its own was ended and the other began while it
ran. -/
theorem token_after_wholeRound {ρ α : Type} {limit : Option Nat} {b : Bench} {source : Source}
    {company : Company α} {act : Behaviour ρ} {a : Admission} (reached : (start limit).Leads b)
    (friendly : ∀ b : Bench, b.Leads (company b).1)
    (lawful : ∀ number limit (b : Bench), b.Leads (act number limit b).1)
    (admitted : b.admission .wholeRound source company = some a) (old : Option Nat)
    (returned : (b.parse .wholeRound source old act company).2.1 ≠ .stuck) :
    let last := (a.bench.runEngine a.number a.input old act).1.session
    let after := (b.parse .wholeRound source old act company).1.session
    after.token a.number = .expired ∧
      ∀ k, k ≠ a.number →
        ((last.token k ≠ .expired ∧ after.token k = .expired) ↔ last.round = some k) ∧
        (last.round = some k → ∀ during, History a.bench.session during last →
          .ended a.number ∈ during ∧ .began k ∈ during) := by
  intro last after
  have entered : a.bench.session.Sound := (reached.trans (admission_leads friendly admitted)).sound
  have sound : last.Sound := (runEngine_leads lawful a.bench a.number a.input old).sound_of entered
  have active := admission_round admitted
  obtain ⟨outcome, -, left⟩ := parse_wholeRound admitted old act
  rw [outcome] at returned
  have left : after = last.leaveRound := by
    rwa [Outcome.isStuck_eq_false_iff.mpr returned] at left
  refine ⟨?_, fun k other => ⟨?_, fun active' during ran => ⟨?_, ?_⟩⟩⟩
  -- Either the exit ends the parse's own round, or somebody has before.
  · rw [left, Session.token_leaveRound sound]
    split
    · rfl
    · rename_i ended
      exact sound.token_other (entered.round_last active).2 ended
  · rw [left]
    exact Session.expired_by_leaveRound_iff sound k
  · have ended : last.round ≠ some a.number := fun e =>
      other (Option.some.inj (active'.symm.trans e))
    rw [ne_eq, ran.round_iff_not_ended entered active, Decidable.not_not] at ended
    exact ended
  · refine ran.began_of_round active' fun e => other ?_
    exact Option.some.inj (e.symm.trans active)

/-- A parse whose engine looks at its token and makes no calls. -/
theorem token_after_wholeRound_poll :
    let act : Behaviour Report := fun number limit b => runScript [.poll] number limit 0 [] b
    let after := ((start none).parse .wholeRound (.bytes [0x61, 0]) none act fun b => (b, ())).1.session
    after.token 1 = .expired := by
  intro act after
  have admitted : (start none).admission .wholeRound (.bytes [0x61, 0]) (fun b => (b, ())) =
      some ⟨1, [0x61, 0], { start none with session := (start none).session.install }⟩ := rfl
  have returned : ((start none).parse .wholeRound (.bytes [0x61, 0]) none act
      fun b => (b, ())).2.1 = .done (some _, .mk 1 none 0 []) := rfl
  exact (token_after_wholeRound (.refl (start none)) (fun b => .refl b)
    (fun number limit b => runScript_leads [.poll] number limit 0 [] b) admitted none
    (by rw [returned]; nofun)).1

/-- A parse while which its round is ended and another begins ends that. -/
theorem wholeRound_ends_other :
    let act : Behaviour Report := fun number limit b =>
      runScript [.call .endRound, .call .beginRound] number limit 0 [] b
    let entered : Bench := { start none with session := (start none).session.install }
    let last := (entered.runEngine 1 [0x61, 0] none act).1.session
    let after := ((start none).parse .wholeRound (.bytes [0x61, 0]) none act fun b => (b, ())).1.session
    last.round = some 2 ∧ last.token 2 = .active ∧ after.round = none ∧ after.token 2 = .expired := by
  decide

end HostParsing.Bench
