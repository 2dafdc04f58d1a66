import HostParsing.Proofs.Session.Alike
import HostParsing.Proofs.Session.Calls
/-!
# Late cancellations

A cancellation comes late if it goes through a token that has expired, or asks a
session without an active round (`Late`). It is not heeded and does nothing, so any
number of them can be put among calls, also among those that are made while a parse
runs or a call waits (`CallsPadded`): all other answers stay as they were, and so
does the bench (`runAll_padded`).
-/

namespace HostParsing.Session

open Bench (AgreeAt ActAlike EndAlike)

variable {s : Session} {b : Bench} {call : Call}

/-! ## Late cancellations -/

/-- A cancellation that comes too late: its token has expired, or no round is
active. -/
inductive Late (s : Session) : Call → Prop
  | token {number : Nat} (expired : s.token number = .expired) : Late s (.token number true)
  | request (idle : s.round = none) : Late s .requestCancellation

/-- How a cancellation ends that comes too late. -/
inductive Unheeded : Call → Turn → Prop
  | token (number : Nat) (phase : Phase) :
    Unheeded (.token number true) (.mk (.done (.token number (some false) .expired)) phase)
  | request (phase : Phase) : Unheeded .requestCancellation (.mk (.done (.cancelled false)) phase)

theorem cancel_of_expired {number : Nat} (expired : s.token number = .expired) :
    s.cancel number = (false, s) := by
  have same : s.tokens.setIfInBounds number .expired = s.tokens := by
    by_cases inside : number < s.tokens.size
    · have last : s.tokens[number] = .expired := by
        rwa [Session.token, Array.getElem?_eq_getElem inside] at expired
      rw [Array.setIfInBounds, dif_pos inside, ← last, Array.set_getElem_self]
    · exact Array.setIfInBounds_eq_of_size_le (Nat.le_of_not_lt inside)
  simp only [cancel, expired, setToken, Token.cancel, Token.heeds, same]

theorem token_of_handOver {t : Session} {input : Bytes} (given : s.handOver input = .done t)
    (k : Nat) : t.token k = s.token k := by
  obtain ⟨-, -, engine, -, rfl⟩ := handOver_eq_done_iff.mp given
  rfl

/-- A late cancellation is not heeded and does nothing. -/
theorem run_of_late (late : Late b.session call) (others : Others) :
    ∃ answer, call.run others b = (b, .done answer, none) ∧
      ∀ phase, Unheeded call (.mk (.done answer) phase) := by
  cases late with
  | @token number expired =>
    refine ⟨.token number (some false) .expired, ?_, .token number⟩
    simp only [Call.run, if_true, cancel_of_expired expired, atOnce, expired]
  | request idle =>
    refine ⟨.cancelled false, ?_, .request⟩
    simp only [Call.run, requestCancellation, idle, atOnce]

/-! ## Putting them in -/

/-- The bench that the others find when they make their calls beside one that may
wait. -/
def Call.meeting (waiter : Call) (beside : List Call) (b : Bench) : Bench :=
  (waiter.awaits b).getD (waiter.run (fun b => runAll beside b) b).1

mutual

/-- A call, with late cancellations put into its script or among the calls beside
it. -/
inductive Call.Padded : Others → Bench → Call → Call → Prop
  | same {others : Others} {b : Bench} (call : Call) : Call.Padded others b call call
  | parse {others : Others} {b : Bench} {mode : Bench.Mode} {source : Bench.Source} {old : Option Nat}
    {script' script : List Step}
    (within : ∀ a handed, b.admission mode source others = some a →
      a.bench.session.handOver a.input = .done handed →
      ScriptPadded a.number handed.limit 0 { a.bench with session := handed } script' script) :
    Call.Padded others b (.parse mode source old script') (.parse mode source old script)
  | alongside {others : Others} {b : Bench} {waiter' waiter : Call} {beside' beside : List Call}
    (waiting : Call.Padded (fun b => runAll beside b) b waiter' waiter)
    (meanwhile : CallsPadded (waiter.meeting beside b) beside' beside) :
    Call.Padded others b (.alongside waiter' beside') (.alongside waiter beside)

/-- A script, with late cancellations put in where it is run. What stands after the
step at which it stops is not run. -/
inductive ScriptPadded : Nat → Option Nat → Nat → Bench → List Step → List Step → Prop
  | nil {number : Nat} {limit : Option Nat} {spent : Nat} {b : Bench} :
    ScriptPadded number limit spent b [] []
  | late {number : Nat} {limit : Option Nat} {spent : Nat} {b : Bench} {call : Call}
    {script' script : List Step} (late : Late b.session call)
    (rest : ScriptPadded number limit spent b script' script) :
    ScriptPadded number limit spent b (.call call :: script') script
  | poll {number : Nat} {limit : Option Nat} {spent : Nat} {b : Bench} {script' script : List Step}
    (rest : b.isWanted number = true → ScriptPadded number limit spent b script' script) :
    ScriptPadded number limit spent b (.poll :: script') (.poll :: script)
  | spend {number : Nat} {limit : Option Nat} {spent : Nat} {b : Bench} {nanos : Nat}
    {script' script : List Step}
    (rest : limit.any (· ≤ spent + nanos) = false →
      ScriptPadded number limit (spent + nanos) b script' script) :
    ScriptPadded number limit spent b (.spend nanos :: script') (.spend nanos :: script)
  | giveUp {number : Nat} {limit : Option Nat} {spent : Nat} {b : Bench} {script' script : List Step} :
    ScriptPadded number limit spent b (.giveUp :: script') (.giveUp :: script)
  | call {number : Nat} {limit : Option Nat} {spent : Nat} {b : Bench} {call' call : Call}
    {script' script : List Step} (padded : Call.Padded alone b call' call)
    (rest : (call.turn b).waits = false →
      ScriptPadded number limit spent (call.run alone b).1 script' script) :
    ScriptPadded number limit spent b (.call call' :: script') (.call call :: script)

/-- Calls, with late cancellations put in between and into them. -/
inductive CallsPadded : Bench → List Call → List Call → Prop
  | nil {b : Bench} : CallsPadded b [] []
  | late {b : Bench} {call : Call} {calls' calls : List Call} (late : Late b.session call)
    (rest : CallsPadded b calls' calls) : CallsPadded b (call :: calls') calls
  | call {b : Bench} {call' call : Call} {calls' calls : List Call}
    (padded : Call.Padded alone b call' call) (rest : CallsPadded (call.run alone b).1 calls' calls) :
    CallsPadded b (call' :: calls') (call :: calls)

end

/-- The call that a step of a script makes. -/
def Step.call? : Step → Option Call
  | .call call => some call
  | _ => none

/-- The calls of a script. -/
def scriptCalls (script : List Step) : List Call := script.filterMap Step.call?

mutual

/-- Two calls and how they ended: the same but for late cancellations, which have
been put into one of them and ended unheeded. -/
inductive TurnPadded : Call → Turn → Call → Turn → Prop
  | same (call : Call) (turn : Turn) : TurnPadded call turn call turn
  | parsed {mode : Bench.Mode} {source : Bench.Source} {old : Option Nat} {script' script : List Step}
    {tree : Option Tree} {number : Nat} {limit : Option Nat} {spent : Nat}
    {during' during : List Turn} {phase : Phase}
    (within : TurnsPadded (scriptCalls script') during' (scriptCalls script) during) :
    TurnPadded (.parse mode source old script')
      (.mk (.done (.parsed tree (.mk number limit spent during'))) phase)
      (.parse mode source old script)
      (.mk (.done (.parsed tree (.mk number limit spent during))) phase)
  | refused {mode : Bench.Mode} {source : Bench.Source} {old : Option Nat} {script' script : List Step}
    {fault : Fault} {phase : Phase} :
    TurnPadded (.parse mode source old script') (.mk (.refused fault) phase)
      (.parse mode source old script) (.mk (.refused fault) phase)
  | stuck {mode : Bench.Mode} {source : Bench.Source} {old : Option Nat} {script' script : List Step}
    {phase : Phase} :
    TurnPadded (.parse mode source old script') (.mk .stuck phase)
      (.parse mode source old script) (.mk .stuck phase)
  | alongside {waiter' waiter : Call} {turn' turn : Turn} {beside' beside : List Call}
    {turns' turns : List Turn} {phase : Phase} (waiting : TurnPadded waiter' turn' waiter turn)
    (meanwhile : TurnsPadded beside' turns' beside turns) :
    TurnPadded (.alongside waiter' beside') (.mk (.done (.alongside turn' turns')) phase)
      (.alongside waiter beside) (.mk (.done (.alongside turn turns)) phase)

/-- Two lists of calls and how they ended, as far as they were made: the same but
for late cancellations, which have been put into one of them and ended unheeded. -/
inductive TurnsPadded : List Call → List Turn → List Call → List Turn → Prop
  | nil {calls' calls : List Call} : TurnsPadded calls' [] calls []
  | late {call : Call} {turn : Turn} {calls' calls : List Call} {turns' turns : List Turn}
    (unheeded : Unheeded call turn) (rest : TurnsPadded calls' turns' calls turns) :
    TurnsPadded (call :: calls') (turn :: turns') calls turns
  | call {call' call : Call} {turn' turn : Turn} {calls' calls : List Call}
    {turns' turns : List Turn} (padded : TurnPadded call' turn' call turn)
    (rest : TurnsPadded calls' turns' calls turns) :
    TurnsPadded (call' :: calls') (turn' :: turns') (call :: calls) (turn :: turns)

end

theorem Unheeded.waits_eq {turn : Turn} (unheeded : Unheeded call turn) : turn.waits = false := by
  cases unheeded <;> rfl

mutual

/-- Late cancellations keep no call from returning. -/
theorem TurnPadded.waits_eq {call' call : Call} {turn' turn : Turn}
    (padded : TurnPadded call' turn' call turn) : turn'.waits = turn.waits := by
  cases padded with
  | same | parsed | refused | stuck => rfl
  | alongside waiting meanwhile =>
    rw [Turn.waits, Turn.waits, waiting.waits_eq, meanwhile.waits_eq]

theorem TurnsPadded.waits_eq {calls' calls : List Call} {turns' turns : List Turn}
    (padded : TurnsPadded calls' turns' calls turns) : waitsAny turns' = waitsAny turns := by
  cases padded with
  | nil => rfl
  | late unheeded rest => rw [waitsAny, unheeded.waits_eq, Bool.false_or, rest.waits_eq]
  | call padded rest => rw [waitsAny, waitsAny, padded.waits_eq, rest.waits_eq]

end

/-- Two reports of scripts, given the turns before a step and the calls from it on:
the same but for late cancellations. -/
inductive ReportPadded (during' during : List Turn) (calls' calls : List Call) :
    Report → Report → Prop
  | mk (number : Nat) (limit : Option Nat) (spent : Nat) {more' more : List Turn}
    (turns : TurnsPadded calls' more' calls more) :
    ReportPadded during' during calls' calls (.mk number limit spent (during' ++ more'))
      (.mk number limit spent (during ++ more))

namespace ReportPadded

variable {during' during : List Turn} {calls' calls : List Call} {report' report : Report}
  {turn' turn : Turn}

theorem nil (number : Nat) (limit : Option Nat) (spent : Nat) :
    ReportPadded during' during calls' calls (.mk number limit spent during')
      (.mk number limit spent during) := by
  have padded : ReportPadded during' during calls' calls _ _ := .mk number limit spent .nil
  rwa [List.append_nil, List.append_nil] at padded

theorem late {cancel : Call} (unheeded : Unheeded cancel turn)
    (padded : ReportPadded (during' ++ [turn]) during calls' calls report' report) :
    ReportPadded during' during (cancel :: calls') calls report' report := by
  cases padded with
  | mk number limit spent turns =>
    rw [List.append_assoc]
    exact .mk number limit spent (.late unheeded turns)

theorem next {call' call : Call} (same : TurnPadded call' turn' call turn)
    (padded : ReportPadded (during' ++ [turn']) (during ++ [turn]) calls' calls report' report) :
    ReportPadded during' during (call' :: calls') (call :: calls) report' report := by
  cases padded with
  | mk number limit spent turns =>
    rw [List.append_assoc, List.append_assoc]
    exact .mk number limit spent (.call same turns)

end ReportPadded

/-! ## Running them -/

variable {call' : Call} {others' others : Others} {script' script : List Step}

theorem Call.Padded.awaits (padded : Call.Padded others b call' call) :
    call'.awaits b = call.awaits b := by
  cases padded <;> rfl

/-- Parses that end alike give turns that differ in their reports alone. -/
theorem TurnPadded.of_parses {ran' ran : Bench × Outcome Fault (Option Tree × Report)}
    (ends : EndAlike (ReportPadded [] [] (scriptCalls script') (scriptCalls script)) ran' ran)
    (mode : Bench.Mode) (source : Bench.Source) (old : Option Nat) :
    ran'.1 = ran.1 ∧ ∀ phase, TurnPadded (.parse mode source old script')
      (.mk (ran'.2.map fun (tree, report) => .parsed tree report) phase)
      (.parse mode source old script)
      (.mk (ran.2.map fun (tree, report) => .parsed tree report) phase) := by
  cases ends with
  | done after tree reports =>
    cases reports with
    | mk number limit spent within => exact ⟨rfl, fun phase => .parsed within⟩
  | refused after fault => exact ⟨rfl, fun phase => .refused⟩
  | stuck after => exact ⟨rfl, fun phase => .stuck⟩

/-- A call runs alike in the company of others that leave the same. -/
theorem Call.run_same (call : Call) {b : Bench}
    (leave : ∀ met, call.awaits b = some met → (others' met).1 = (others met).1) :
    (call.run others' b).1 = (call.run others b).1 ∧
      (call.run others' b).2.1 = (call.run others b).2.1 := by
  cases call with
  | parse mode source old script =>
    let act : Bench.Behaviour Report := fun number limit b => runScript script number limit 0 [] b
    have same := (Bench.parse_alike old act act (fun _ _ _ _ => ActAlike.refl _)
      fun waits => leave b (by rw [Call.awaits, waits]; rfl)).eq
    rw [Call.run, Call.run]
    obtain ⟨bench, outcome⟩ := Prod.mk.inj same
    exact ⟨bench, congrArg (Outcome.map _) outcome⟩
  | cancelAndWait =>
    rw [Call.run, Call.run]
    simp only [Bench.cancelAndWait]
    cases active : b.session.round with
    | none => exact ⟨rfl, rfl⟩
    | some number =>
      have same := leave _ (by rw [Call.awaits, active]; rfl)
      simp only [same]
      split <;> exact ⟨rfl, rfl⟩
  | _ => exact ⟨rfl, rfl⟩

mutual

/-- A call with late cancellations put into it runs as it does without them. -/
theorem Call.run_padded (call' : Call) (others' : Others) {call : Call} {others : Others} {b : Bench}
    (padded : Call.Padded others b call' call)
    (leave : ∀ met, call.awaits b = some met → (others' met).1 = (others met).1) :
    (call'.run others' b).1 = (call.run others b).1 ∧
      ∀ phase, TurnPadded call' (.mk (call'.run others' b).2.1 phase)
        call (.mk (call.run others b).2.1 phase) := by
  cases padded with
  | same call =>
    obtain ⟨bench, outcome⟩ := call'.run_same leave
    exact ⟨bench, fun phase => outcome ▸ .same _ _⟩
  | @parse _ _ mode source old script' script within =>
    have ends := Bench.parse_alike old
      (fun number limit b => runScript script' number limit 0 [] b)
      (fun number limit b => runScript script number limit 0 [] b)
      (fun a admitted handed given => runScript_padded script' (within a handed admitted given))
      fun waits => leave b (by rw [Call.awaits, waits]; rfl)
    rw [Call.run, Call.run]
    exact TurnPadded.of_parses ends mode source old
  | @alongside _ _ waiter' waiter beside' beside waiting meanwhile =>
    -- The others act at one place only: where the waiter waits, or after it.
    have acted := runAll_padded beside' meanwhile
    have ran := waiter'.run_padded (fun b => runAll beside' b) waiting
      fun met waits => by
        rw [Call.meeting, waits] at acted
        exact acted.1
    have company' := waiter'.run_company (fun b => runAll beside' b) b
    have company := waiter.run_company (fun b => runAll beside b) b
    rw [waiting.awaits] at company'
    rw [Call.meeting] at acted
    rw [Call.run, Call.run]
    generalize waiter'.run (fun b => runAll beside' b) b = ran' at *
    generalize waiter.run (fun b => runAll beside b) b = ran₀ at *
    obtain ⟨met', outcome', turns'⟩ := ran'
    obtain ⟨met, outcome, turns⟩ := ran₀
    obtain ⟨rfl, outcomes⟩ := ran
    cases waits : waiter.awaits b with
    | some meeting =>
      rw [waits] at acted company' company
      cases company'
      cases company
      exact ⟨rfl, fun phase => .alongside (outcomes _) acted.2⟩
    | none =>
      rw [waits] at acted company' company
      cases company'
      cases company
      exact ⟨acted.1, fun phase => .alongside (outcomes _) acted.2⟩

theorem runScript_padded (script' : List Step) {script : List Step} {number : Nat}
    {limit : Option Nat} {spent : Nat} {during' during : List Turn} {b : Bench}
    (padded : ScriptPadded number limit spent b script' script) :
    ActAlike (ReportPadded during' during (scriptCalls script') (scriptCalls script))
      (runScript script' number limit spent during' b)
      (runScript script number limit spent during b) := by
  match script', padded with
  | [], .nil =>
    rw [runScript, runScript]
    exact .mk _ _ (.nil ..)
  | .call call :: script', .late late rest =>
    obtain ⟨answer, ran, unheeded⟩ := run_of_late late alone
    have turn : call.turn b = .mk (.done answer) b.session.phase := by rw [Call.turn, ran]
    rw [runScript_call, turn, (unheeded _).waits_eq, ran, if_neg Bool.false_ne_true]
    exact (runScript_padded script' rest).imp (.late (unheeded _))
  | .poll :: script', .poll rest =>
    rw [runScript, runScript]
    split
    · rename_i wanted
      exact runScript_padded script' (rest wanted)
    · exact .mk _ _ (.nil ..)
  | .spend nanos :: script', .spend rest =>
    rw [runScript, runScript]
    split
    · exact .mk _ _ (.nil ..)
    · rename_i within
      exact runScript_padded script' (rest (by simpa using within))
  | .giveUp :: script', .giveUp =>
    rw [runScript, runScript]
    exact .mk _ _ (.nil ..)
  | .call call' :: script', @ScriptPadded.call _ _ _ _ _ call _ _ padded rest =>
    obtain ⟨bench, outcome⟩ := call'.run_padded alone padded fun met _ => rfl
    have same : TurnPadded call' (call'.turn b) call (call.turn b) := by
      rw [Call.turn, bench]
      exact outcome _
    rw [runScript_call, runScript_call, same.waits_eq, bench]
    split
    · exact .mk _ _ (.next same (.nil ..))
    · rename_i returned
      exact (runScript_padded script' (rest (Bool.eq_false_iff.mpr returned))).imp (.next same)

/-- Calls with late cancellations put in run as they do without them. -/
theorem runAll_padded (calls' : List Call) {calls : List Call} {b : Bench}
    (padded : CallsPadded b calls' calls) :
    (runAll calls' b).1 = (runAll calls b).1 ∧
      TurnsPadded calls' (runAll calls' b).2 calls (runAll calls b).2 := by
  match calls', padded with
  | [], .nil =>
    rw [runAll]
    exact ⟨rfl, .nil⟩
  | call :: calls', .late late rest =>
    obtain ⟨answer, ran, unheeded⟩ := run_of_late late alone
    obtain ⟨bench, turns⟩ := runAll_padded calls' rest
    rw [runAll, ran]
    exact ⟨bench, .late (unheeded _) turns⟩
  | call' :: calls', .call padded rest =>
    obtain ⟨bench, outcome⟩ := call'.run_padded alone padded fun met _ => rfl
    obtain ⟨last, turns⟩ := runAll_padded calls' rest
    rw [runAll, runAll]
    simp only [bench]
    exact ⟨last, .call (outcome _) turns⟩

end

/-- Late cancellations are inert. Each is answered as unheeded and leaves the bench
as it is; any number of them, put anywhere among calls and into their scripts,
change neither the bench nor any other answer. So the token of a round that begins
is active, whatever was before, and becomes cancelled only by a cancellation of that
token while its round is active. -/
theorem late_cancellations_inert (limit : Option Nat) :
    (∀ b call others, Late b.session call → ∃ answer,
      call.run others b = (b, .done answer, none) ∧
        ∀ phase, Unheeded call (.mk (.done answer) phase)) ∧
    (∀ b calls' calls, CallsPadded b calls' calls →
      (runAll calls' b).1 = (runAll calls b).1 ∧
        TurnsPadded calls' (runAll calls' b).2 calls (runAll calls b).2) ∧
    (∀ past s g t, History (start limit) past s → Happens s (.began g) t →
      t.token g = .active ∧
        ∀ events u, History t events u → u.token g = .cancelled →
          ∃ before met after, events = before ++ .cancelled g true :: after ∧
            History t before met ∧ met.round = some g) := by
  refine ⟨fun b call others late => run_of_late late others,
    fun b calls' calls padded => runAll_padded calls' padded, fun past s g t before step => ?_⟩
  have sound := before.sound (sound_start limit)
  have active := step.token_of_began sound
  refine ⟨active, fun events u history cancelled => ?_⟩
  refine history.exists_cancelled (step.sound sound) ?_ (active ▸ nofun) cancelled
  cases step
  exact Nat.succ_ne_zero _

/-- A token is cancelled after its round, once before and once while another round
runs, and a cancellation is asked for between the rounds. -/
theorem late_cancellations_inert_around_parse :
    let input : Bench.Source := .bytes [0x61, 0]
    let calls : List Call := [.beginRound, .endRound,
      .parse .wholeRound input none [.call .isParsing]]
    let calls' : List Call := [.beginRound, .endRound, .token 1 true, .requestCancellation,
      .parse .wholeRound input none [.call (.token 1 true), .call .isParsing]]
    let b := Bench.start none
    (runAll calls' b).1 = (runAll calls b).1 ∧
      TurnsPadded calls' (runAll calls' b).2 calls (runAll calls b).2 ∧
      (start none).install.token 1 = .active := by
  intro input calls calls' b
  obtain ⟨-, inert, begins⟩ := late_cancellations_inert none
  have padded : CallsPadded b calls' calls := by
    refine .call (.same _) (.call (.same _) (.late (.token rfl) (.late (.request rfl)
      (.call (.parse fun a handed admitted given => ?_) .nil))))
    cases admitted
    exact .late (.token (token_of_handOver given 1)) (.call (.same _) fun _ => .nil)
  obtain ⟨bench, turns⟩ := inert b calls' calls padded
  exact ⟨bench, turns, (begins [] (start none) 1 _ .nil (.began rfl rfl)).1⟩

end HostParsing.Session
