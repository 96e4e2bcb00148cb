import LoadPacing.Proofs.Session.Control
import LoadPacing.Proofs.Session.Streams

-- A signal that is not applied leaves a session as it found it.
namespace LoadPacing

-- A list without its entries at these positions.
def omitting (positions : Nat → Bool) : List β → List β
  | [] => []
  | entry :: rest =>
    if positions 0 then omitting (fun i => positions (i + 1)) rest
    else entry :: omitting (fun i => positions (i + 1)) rest

-- Control rounds that are asked for directly.
def Action.isSignal : Action α → Bool
  | .observe _ _ | .observeDeadline _ => true
  | _ => false

def Answer.verdict? : Answer α → Option Verdict
  | .verdict told => some told
  | _ => none

namespace Regulator

-- All that a commit moves.
def control (r : Regulator) : Binary64 × Option Nanos × Binary64 := (r.current,r.lastCommit,r.bucket.rate)

def turned (r : Regulator) (rate : Binary64) (now : Nanos) : Regulator :=
  ⟨r.lower,r.upper,rate,some now,⟨rate,r.bucket.burst,r.bucket.balance,r.bucket.refilled⟩⟩

theorem adopt_turned (r : Regulator) (flows : rate.Positive) (now : Nanos) : r.adopt rate now = r.turned rate now := by
  unfold adopt turned Bucket.retune
  rw [if_pos flows]

theorem settled_turned {r changed : Regulator} (sound : settings.Sound) (follows : r.Follows settings log)
    (settled : r.Settled now verdict changed) :
    (∃ rate, verdict = .applied r.current rate ∧ changed = r.turned rate now) ∨
      verdict.isApplied = false ∧ changed = r := by
  rcases settled with ⟨rate,inside,applied,adopted⟩ | unapplied
  · have bounded : Settings.Within settings.lowerBound settings.upperBound rate := by
      rw [← follows.lower,← follows.upper]
      exact inside
    have flows := Binary64.positive_of_within sound.lower sound.upper bounded
    rw [r.adopt_turned flows] at adopted
    exact .inl ⟨rate,applied,adopted⟩
  · exact .inr unapplied

end Regulator

namespace Session
variable {s after : Session α} {action : Action α} {settings : Settings} {log : List Change} {verdict : Verdict}
  {trace : Trace α}

def Unapplied (s : Session α) (action : Action α) : Prop :=
  action.isSignal ∧ (s.step action).1.verdict?.map Verdict.isApplied = some false

instance (s : Session α) (action : Action α) : Decidable (s.Unapplied action) :=
  inferInstanceAs (Decidable (_ ∧ _))

-- What every step of a run answers, leaves behind and reports.
def history (s : Session α) : List (Action α) → List (Result α (Answer α))
  | [] => []
  | action :: rest => s.step action :: (s.step action).2.1.history rest

theorem signal_round (signal : action.isSignal) (told : (s.step action).1.verdict? = some verdict) :
    ∃ outcome, Regulator.Round s.regulator s.now outcome ∧ outcome.1 = verdict ∧
      (s.step action).2.1 = { s with regulator := outcome.2.1 } := by
  cases action with
  | observe service samples =>
    unfold step at told ⊢
    dsimp only at told ⊢
    cases tuned : s.tuningOf service with
    | none => simp [tuned,Answer.verdict?] at told
    | some tuning =>
      simp only [tuned] at told
      exact ⟨_,.observe tuning samples,Option.some.inj told,rfl⟩
  | observeDeadline service =>
    unfold step at told ⊢
    dsimp only at told ⊢
    cases tuned : s.tuningOf service with
    | none => simp [tuned,Answer.verdict?] at told
    | some tuning =>
      simp only [tuned] at told
      exact ⟨_,.deadline tuning,Option.some.inj told,rfl⟩
  | _ => cases signal

theorem unapplied_same (unapplied : s.Unapplied action) : (s.step action).2.1 = s := by
  obtain ⟨signal,told⟩ := unapplied
  obtain ⟨verdict,here,rejected⟩ := Option.map_eq_some_iff.mp told
  obtain ⟨outcome,ran,rfl,after⟩ := signal_round signal here
  rcases ran.settled with ⟨rate,_,applied,_⟩ | ⟨_,same⟩
  · rw [applied] at rejected
    cases rejected
  · rw [after,same]

theorem history_omitting (positions : Nat → Bool) (actions : List (Action α))
    (unapplied : ∀ i action, positions i = true → actions[i]? = some action →
      (s.run (actions.take i)).2.Unapplied action) :
    s.history (omitting positions actions) = omitting positions (s.history actions) ∧
    (s.run (omitting positions actions)).2 = (s.run actions).2 := by
  induction actions generalizing s positions with
  | nil => exact ⟨rfl,rfl⟩
  | cons action rest ih =>
    have later := @ih (s.step action).2.1 (fun i => positions (i + 1)) fun i next chosen there =>
      unapplied (i + 1) next chosen there
    have ran : (s.run (action :: rest)).2 = ((s.step action).2.1.run rest).2 := rfl
    rw [history,ran,omitting,omitting]
    cases chosen : positions 0 with
    | false => exact ⟨congrArg (s.step action :: ·) later.1,later.2⟩
    | true =>
      have same : (s.step action).2.1 = s := unapplied_same (unapplied 0 action chosen rfl)
      rw [same] at later ⊢
      exact later

theorem effect_unapplied {r changed : Regulator} {now : Nanos} {ops : List Bucket.Op} {verdicts : List Verdict}
    (effect : Effect r now ops verdicts changed)
    (rejected : ∀ verdict ∈ verdicts, verdict.isApplied = false) : changed.control = r.control := by
  cases effect with
  | settled settled =>
    rcases settled with ⟨rate,_,rfl,_⟩ | ⟨_,rfl⟩
    · cases rejected _ (List.mem_singleton_self _)
    · rfl
  | operated inward =>
    have rate := Bucket.run_rate r.bucket _ inward
    unfold Regulator.control
    rw [rate]

theorem moves_unapplied (moves : Moves Move s trace after)
    (rejected : ∀ verdict ∈ trace.verdicts, verdict.isApplied = false) :
    after.regulator.control = s.regulator.control := by
  induction moves with
  | nil => rfl
  | cons move _ ih =>
    rw [Trace.append_verdicts] at rejected
    obtain ⟨first,others⟩ := List.forall_mem_append.mp rejected
    exact (ih others).trans (effect_unapplied move.effect first)

theorem step_unapplied (inside : ∀ rate, action ≠ .setRate rate)
    (rejected : ∀ verdict ∈ (s.step action).2.2.verdicts, verdict.isApplied = false) :
    (s.step action).2.1.regulator.control = s.regulator.control := by
  rcases (s.step_stepped action).moves with ⟨rate,outside,_⟩ | ⟨_,middle,now,moves,_,left⟩
  · exact absurd outside (inside rate)
  · have kept := moves_unapplied moves rejected
    rw [left]
    exact kept

structure Steered (s : Session α) (action : Action α) (stepped : Result α (Answer α)) : Prop where
  -- Permits may come and go in a step without an applied round, but the rate stays.
  kept : (∀ rate, action ≠ .setRate rate) → (∀ verdict ∈ stepped.2.2.verdicts, verdict.isApplied = false) →
    stepped.2.1.regulator.control = s.regulator.control
  signalled : ∀ previous current, action.isSignal → stepped.1.verdict? = some (.applied previous current) →
    previous = s.regulator.current ∧ stepped.2.1 = { s with regulator := s.regulator.turned current s.now }
  streamed : ∀ id relay, action = .next id → s.stream id = some relay →
    ∃ regulator, stepped.2.1 = { s with regulator }.put id (.relaying relay.next.2.1) ∧
      ((∃ current, stepped.2.2.verdicts = [.applied s.regulator.current current] ∧
          regulator = s.regulator.turned current s.now) ∨
        (∀ verdict ∈ stepped.2.2.verdicts, verdict.isApplied = false) ∧ regulator = s.regulator)

theorem step_steered (sound : settings.Sound) (follows : s.regulator.Follows settings log) (action : Action α) :
    Steered s action (s.step action) := by
  refine ⟨step_unapplied,?_,?_⟩
  · intro previous current signal told
    obtain ⟨outcome,ran,verdict,left⟩ := signal_round signal told
    rcases Regulator.settled_turned sound follows ran.settled with ⟨rate,applied,turned⟩ | ⟨rejected,_⟩
    · rw [applied] at verdict
      cases verdict
      exact ⟨rfl,by rw [left,turned]⟩
    · rw [verdict] at rejected
      cases rejected
  · rintro id relay rfl found
    rw [step_next_rest]
    unfold readItem
    rw [stream_found found]
    dsimp only
    cases relay.next.2.2 with
    | nothing | completed => exact ⟨s.regulator,rfl,.inr ⟨List.forall_mem_nil _,rfl⟩⟩
    | signal signal =>
      have ran : Regulator.Round s.regulator s.now (s.regulator.hear relay.tuning s.now signal) := .hear _ _
      refine ⟨_,rfl,?_⟩
      rcases Regulator.settled_turned sound follows ran.settled with ⟨rate,applied,turned⟩ | ⟨rejected,same⟩
      · exact .inl ⟨rate,congrArg (fun verdict => [verdict]) applied,turned⟩
      · exact .inr ⟨List.forall_mem_singleton.mpr rejected,same⟩

-- Any signals that came to nothing may be left out: all other steps answer, report and leave what they did.
theorem unapplied_leave_no_trace (made : Regulator.new settings s.now = .ok s.regulator)
    (actions : List (Action α)) :
    (∀ positions : Nat → Bool,
      (∀ i action, positions i = true → actions[i]? = some action → (s.run (actions.take i)).2.Unapplied action) →
      s.history (omitting positions actions) = omitting positions (s.history actions) ∧
      (s.run (omitting positions actions)).2 = (s.run actions).2) ∧
    ∀ before action after, actions = before ++ action :: after →
      Steered (s.run before).2 action ((s.run before).2.step action) := by
  refine ⟨fun positions unapplied => history_omitting positions actions unapplied,?_⟩
  intro before action after _
  obtain ⟨sound,_⟩ := Regulator.new_ok made
  exact step_steered sound (later_follows sound (Regulator.follows_new made) before) action

-- The signals left out come too early, carry no reading or ask for too much.
theorem unapplied_leave_no_trace_three_omitted :
    let settings : Settings := ⟨4,50,Nanos.perSecond,1,100,1,none⟩
    let opened : Session Unit := ⟨0,⟨1,100,4,none,⟨4,1,1,0⟩⟩,.of settings,[],[],0,0⟩
    let actions : List (Action Unit) :=
      [.acquire 0 false,.acquire 1 false,.observe none [25],.observe none [10],.observe none [.nan,0],
        .observeDeadline none,.advance (2 * Nanos.perSecond),.observe none [1],.observe none [100],.poll 1]
    let positions := fun i => i == 3 || i == 4 || i == 7
    (opened.history actions).map (fun stepped => stepped.1.verdict?.map Verdict.name) =
      [none,none,some "Applied",some "CoolingDown",some "NoSignal",some "CoolingDown",none,some "OutOfBounds",
        some "Applied",none] ∧
    opened.history (omitting positions actions) = omitting positions (opened.history actions) ∧
    (opened.run (omitting positions actions)).2 = (opened.run actions).2 ∧
    ((opened.run actions).2.regulator.control,(opened.run actions).2.regulator.bucket.refilled) =
      ((4,some (2 * Nanos.perSecond),4),0) ∧
    Steered (opened.run (actions.take 8)).2 (.observe none [100])
      ((opened.run (actions.take 8)).2.step (.observe none [100])) := by
  intro settings opened actions positions
  have sound : settings.Sound := by constructor <;> decide +kernel
  have unapplied : ∀ i action, positions i = true → actions[i]? = some action →
      (opened.run (actions.take i)).2.Unapplied action := by
    intro i action chosen there
    have one : i = 3 ∨ i = 4 ∨ i = 7 := by simpa [positions,or_assoc] using chosen
    rcases one with rfl | rfl | rfl <;> (cases there; decide +kernel)
  have made : Regulator.new settings opened.now = .ok opened.regulator := Regulator.new_sound sound
  obtain ⟨omitted,steered⟩ := unapplied_leave_no_trace made actions
  obtain ⟨told,left⟩ := omitted positions unapplied
  exact ⟨by decide +kernel,told,left,by decide +kernel,steered (actions.take 8) _ [.poll 1] rfl⟩

end Session
end LoadPacing
