import LoadPacing.Proofs.Session.Calling

-- What a poll of a call comes to, at the gate and with the backend.
namespace LoadPacing

namespace Call

-- What a poll gets at the gate, if the call is still there.
def gate (call : Call α) (s : Session α) : Option Wait.Polled :=
  match call.stage with
  | .atGate wait => some (wait.poll s.now s.regulator.bucket)
  | .issued _ => none

def gated (call : Call α) (s : Session α) : Regulator :=
  match call.gate s with
  | some polled => { s.regulator with bucket := polled.bucket }
  | none => s.regulator

def reached (call : Call α) (s : Session α) : Option Nat :=
  match call.stage with
  | .atGate wait => if (wait.poll s.now s.regulator.bucket).outcome = .ready then some call.plan.pauses else none
  | .issued pauses => some pauses

-- The backend answers once it has made its pauses, and the call is over.
def resumed (call : Call α) : Nat → Option (Call α)
  | 0 => none
  | pauses + 1 => some { call with stage := .issued pauses }

def inner (call : Call α) (s : Session α) : Option (Except Failure (Script α)) :=
  if call.reached s = some 0 then some call.plan.outcome else none

def next (call : Call α) (s : Session α) : Option (Call α) :=
  match call.reached s with
  | some pauses => call.resumed pauses
  | none => (call.gate s).bind fun polled =>
    if polled.outcome = .pending then some { call with stage := .atGate polled.wait } else none

end Call

namespace Session
variable {s : Session α} {id : Nat} {call : Call α}

theorem proceed_issues (s : Session α) (id : Nat) (call : Call α) (pauses : Nat) :
    (s.proceed id call pauses).2.2.issues = [] := by
  unfold proceed
  split
  · rfl
  · split
    · rfl
    · split <;> rfl

theorem proceed_calling (s : Session α) (id : Nat) (call : Call α) (pauses : Nat) :
    (s.proceed id call pauses).2.1.calling id = call.resumed pauses := by
  cases pauses with
  | succ pauses => exact calling_put _ _ _
  | zero =>
    unfold proceed
    cases call.plan.outcome with
    | ok script => exact calling_put _ _ _
    | error failure =>
      dsimp only
      split <;> exact calling_put _ _ _

theorem pollGate_ready {wait : Wait} (ready : (wait.poll s.now s.regulator.bucket).outcome = .ready)
    (id : Nat) (waiting : Wait → Handle α) (through : Handle α) (issues : List (Issue α)) :
    let polled := wait.poll s.now s.regulator.bucket
    s.pollGate id wait waiting through issues =
      (.ready,{ s.withBucket polled.bucket with issued := s.issued + issues.length }.put id through,
        .ofPass polled.ops issues) := by
  unfold pollGate
  dsimp only
  rw [ready]
  rfl

theorem pollGate_stopped {wait : Wait} (stopped : (wait.poll s.now s.regulator.bucket).outcome ≠ .ready)
    (id : Nat) (waiting : Wait → Handle α) (through : Handle α) (issues : List (Issue α)) :
    let polled := wait.poll s.now s.regulator.bucket
    s.pollGate id wait waiting through issues =
      (polled.outcome,
        (s.withBucket polled.bucket).put id (if polled.outcome = .pending then waiting polled.wait else .finished),
        .ofOps polled.ops) := by
  unfold pollGate
  dsimp only
  cases outcome : (wait.poll s.now s.regulator.bucket).outcome with
  | ready => exact absurd outcome stopped
  | pending | failed | overflow => rfl

theorem pollCall_reached (id : Nat) (reached : call.reached s = some pauses) :
    ∃ base : Session α, base.now = s.now ∧ base.regulator = call.gated s ∧
      (s.pollCall id call).1 = (base.proceed id call pauses).1 ∧
      (s.pollCall id call).2.1 = (base.proceed id call pauses).2.1 ∧
      (s.pollCall id call).2.2.notices = (base.proceed id call pauses).2.2.notices ∧
      (s.pollCall id call).2.2.verdicts = (base.proceed id call pauses).2.2.verdicts ∧
      (s.pollCall id call).2.2.issues = (call.gate s).toList.map fun _ => call.issue := by
  unfold Call.reached at reached
  unfold pollCall Call.gated Call.gate
  cases stage : call.stage with
  | issued left =>
    rw [stage] at reached
    cases reached
    exact ⟨s,rfl,rfl,rfl,rfl,rfl,rfl,s.proceed_issues id call _⟩
  | atGate wait =>
    rw [stage] at reached
    dsimp only at reached ⊢
    split at reached
    · rename_i ready
      cases reached
      have through := s.pollGate_ready ready id (fun wait => .calling { call with stage := .atGate wait })
        (.calling { call with stage := .issued call.plan.pauses }) [call.issue]
      unfold pollCallGate
      rw [through,if_pos rfl]
      refine ⟨_,?_,?_,rfl,rfl,rfl,rfl,?_⟩
      · rfl
      · rfl
      · simp [Trace.ofPass,proceed_issues]
    · cases reached

theorem pollCall_stopped (id : Nat) (stopped : call.reached s = none) :
    ∃ polled, call.gate s = some polled ∧ polled.outcome ≠ .ready ∧
      s.pollCall id call =
        (.ofOutcome polled.outcome,
          (s.withBucket polled.bucket).put id
            (if polled.outcome = .pending then .calling { call with stage := .atGate polled.wait } else .finished),
          .ofOps polled.ops) := by
  unfold Call.reached at stopped
  unfold pollCall Call.gate
  cases stage : call.stage with
  | issued pauses =>
    rw [stage] at stopped
    cases stopped
  | atGate wait =>
    rw [stage] at stopped
    dsimp only at stopped ⊢
    split at stopped
    · cases stopped
    · rename_i early
      refine ⟨_,rfl,early,?_⟩
      have held := s.pollGate_stopped early id (fun wait => .calling { call with stage := .atGate wait })
        (.calling { call with stage := .issued call.plan.pauses }) [call.issue]
      unfold pollCallGate
      rw [held]
      exact if_neg early

theorem pollCall_calling (s : Session α) (id : Nat) (call : Call α) :
    (s.pollCall id call).2.1.calling id = call.next s := by
  unfold Call.next
  cases reached : call.reached s with
  | some pauses =>
    obtain ⟨base,_,_,_,after,_⟩ := pollCall_reached id reached
    rw [after]
    exact base.proceed_calling id call pauses
  | none =>
    obtain ⟨polled,gate,_,ran⟩ := pollCall_stopped id reached
    rw [ran,gate]
    dsimp only
    rw [calling_put,Option.bind_some]
    split <;> rfl

theorem pollCall_issues (s : Session α) (id : Nat) (call : Call α) :
    (s.pollCall id call).2.2.issues =
      if (call.gate s).map Wait.Polled.outcome = some .ready then [call.issue] else [] := by
  cases reached : call.reached s with
  | none =>
    obtain ⟨polled,gate,early,ran⟩ := pollCall_stopped id reached
    rw [ran,gate,Option.map_some,if_neg fun ready => early (Option.some.inj ready)]
    rfl
  | some pauses =>
    obtain ⟨base,_,_,_,_,_,_,issues⟩ := pollCall_reached id reached
    rw [issues]
    unfold Call.reached at reached
    unfold Call.gate
    split
    · rename_i wait stage
      rw [stage] at reached
      dsimp only at reached
      split at reached
      · rename_i ready
        simp [ready]
      · cases reached
    · simp

theorem gated_kept (call : Call α) (s : Session α) :
    (call.gated s).current = s.regulator.current ∧ (call.gated s).lastCommit = s.regulator.lastCommit ∧
    (call.gated s).bucket.rate = s.regulator.bucket.rate := by
  unfold Call.gated Call.gate
  cases call.stage with
  | issued pauses => exact ⟨rfl,rfl,rfl⟩
  | atGate wait =>
    have polling := wait.poll_polling s.now s.regulator.bucket
    refine ⟨rfl,rfl,?_⟩
    dsimp only
    rw [polling.bucket_eq]
    exact Bucket.run_rate _ _ polling.inward

theorem pollCall_answer (stopped : call.reached s = none) (id : Nat) (gate : call.gate s = some polled) :
    (s.pollCall id call).1 = .ofOutcome polled.outcome := by
  obtain ⟨same,held,_,ran⟩ := pollCall_stopped id stopped
  rw [held] at gate
  cases gate
  rw [ran]

theorem pollCall_quiet (id : Nat) (quiet : call.inner s = none) :
    (s.pollCall id call).2.1.regulator = call.gated s ∧ (s.pollCall id call).2.2.notices = [] ∧
    (s.pollCall id call).2.2.verdicts = [] := by
  unfold Call.inner at quiet
  cases reached : call.reached s with
  | none =>
    obtain ⟨polled,gate,_,ran⟩ := pollCall_stopped id reached
    rw [ran,Call.gated,gate]
    exact ⟨rfl,rfl,rfl⟩
  | some pauses =>
    rw [reached] at quiet
    obtain ⟨base,_,regulator,_,after,notices,verdicts,_⟩ := pollCall_reached id reached
    rw [after,notices,verdicts,← regulator]
    cases pauses with
    | zero => cases quiet
    | succ pauses => exact ⟨rfl,rfl,rfl⟩

theorem pollCall_failed {failure : Failure} (id : Nat) (failed : call.inner s = some (.error failure)) :
    (s.pollCall id call).1 = .failed failure ∧
    ((s.pollCall id call).2.2.verdicts,(s.pollCall id call).2.1.regulator,(s.pollCall id call).2.2.notices) =
      if failure.isDeadline then
        let round := (call.gated s).observeDeadline call.tuning s.now
        ([round.1],round.2.1,round.2.2)
      else ([],call.gated s,[]) := by
  unfold Call.inner at failed
  split at failed
  · rename_i reached
    obtain ⟨base,now,regulator,answer,after,notices,verdicts,_⟩ := pollCall_reached id reached
    rw [answer,after,notices,verdicts,← regulator,← now]
    unfold proceed
    rw [Option.some.inj failed]
    dsimp only
    split <;> exact ⟨rfl,rfl⟩
  · cases failed

theorem pollCall_streams (id : Nat) (streams : call.inner s = some (.ok script)) :
    (s.pollCall id call).1 = .stream ∧ (s.pollCall id call).2.1.regulator = call.gated s ∧
    (s.pollCall id call).2.2.notices = [.callStarted] ∧ (s.pollCall id call).2.2.verdicts = [] := by
  unfold Call.inner at streams
  split at streams
  · rename_i reached
    obtain ⟨base,_,regulator,answer,after,notices,verdicts,_⟩ := pollCall_reached id reached
    rw [answer,after,notices,verdicts,← regulator]
    unfold proceed
    rw [Option.some.inj streams]
    exact ⟨rfl,rfl,rfl,rfl⟩
  · cases streams

theorem pollHandle_calling (found : s.calling id = some call) :
    s.pollHandle id = (.progress (s.pollCall id call).1,(s.pollCall id call).2) := by
  unfold pollHandle
  rw [calling_found found]

theorem pollHandle_idle (idle : s.calling id = none) :
    (s.pollHandle id).2.1.calling id = none ∧ (s.pollHandle id).2.2.issues = [] := by
  unfold pollHandle
  split
  · exact ⟨idle,rfl⟩
  · rename_i wait here
    dsimp only [pollWait,pollGate]
    split <;> exact ⟨calling_put _ _ _,rfl⟩
  · rename_i call here
    simp [calling,here,Handle.call?] at idle
  · exact ⟨idle,rfl⟩

end Session
end LoadPacing
