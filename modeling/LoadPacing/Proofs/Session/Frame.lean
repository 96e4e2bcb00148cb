import LoadPacing.Proofs.Session.Moves

-- An action has to do with at most one handle. All others stay as they are.
namespace LoadPacing

def Action.handle : Action α → Option Nat
  | .acquire id _ | .acquireBefore id _ _ | .acquireCancellable id _ _ | .cancel id | .poll id | .drop id
  | .call id _ _ _ | .next id | .collect id | .callState id | .unwrap id => some id
  | .advance _ | .setRate _ | .tryAcquire | .drain _ | .acquireAwait | .observe _ _ | .observeDeadline _
  | .contains _ | .stats | .instanceOf _ | .clone _ | .layer | .shareService _ | .shareLayer _
  | .pollReady _ _ => none

namespace Session
variable {id other : Nat}

theorem lookup_put_other (s : Session α) (handle : Handle α) (different : other ≠ id) :
    (s.put id handle).lookup other = s.lookup other := Registry.find_put_other different

theorem release_other (s : Session α) (different : other ≠ id) : (s.release id).2.1.lookup other = s.lookup other := by
  unfold release
  cases s.lookup id with
  | none => rfl
  | some handle => exact Registry.find_without_other different

theorem pollGate_other (s : Session α) (wait : Wait) (waiting : Wait → Handle α) (through : Handle α)
    (issues : List (Issue α)) (different : other ≠ id) :
    (s.pollGate id wait waiting through issues).2.1.lookup other = s.lookup other := by
  unfold pollGate
  dsimp only
  split <;> exact lookup_put_other _ _ different

theorem proceed_other (s : Session α) (call : Call α) (pauses : Nat) (different : other ≠ id) :
    (s.proceed id call pauses).2.1.lookup other = s.lookup other := by
  cases pauses with
  | succ pauses => exact lookup_put_other _ _ different
  | zero =>
    unfold proceed
    cases call.plan.outcome with
    | ok script => exact lookup_put_other _ _ different
    | error failure =>
      dsimp only
      split <;> exact lookup_put_other _ _ different

theorem pollCall_other (s : Session α) (call : Call α) (different : other ≠ id) :
    (s.pollCall id call).2.1.lookup other = s.lookup other := by
  unfold pollCall
  split
  · exact proceed_other _ _ _ different
  · dsimp only
    have gated := pollGate_other s ‹Wait› (fun wait => .calling { call with stage := .atGate wait })
      (.calling { call with stage := .issued call.plan.pauses }) [call.issue] different
    split
    · exact (proceed_other _ _ _ different).trans gated
    · exact gated

theorem pollHandle_other (s : Session α) (different : other ≠ id) :
    (s.pollHandle id).2.1.lookup other = s.lookup other := by
  unfold pollHandle
  split
  · rfl
  · exact pollGate_other s _ _ _ _ different
  · exact pollCall_other s _ different
  · rfl

theorem launch_other (s : Session α) (handle : Handle α) (unpolled : Bool) (different : other ≠ id) :
    (s.launch id handle unpolled).2.1.lookup other = s.lookup other := by
  have started : ((s.release id).2.1.put id handle).lookup other = s.lookup other :=
    (lookup_put_other _ _ different).trans (s.release_other different)
  unfold launch
  cases unpolled with
  | true => exact started
  | false => exact (pollHandle_other _ different).trans started

theorem drain_lookup (most taken : Nat) (s : Session α) (id : Nat) :
    (drain most taken s).2.1.lookup id = s.lookup id :=
  (drain_tries most taken s).keeps (f := fun s => s.lookup id) fun | .mk _ => rfl

theorem readItem_other (s : Session α) (different : other ≠ id) :
    (s.readItem id).2.1.lookup other = s.lookup other := by
  unfold readItem
  split
  · exact lookup_put_other _ _ different
  · dsimp only
    split <;> exact lookup_put_other _ _ different
  · rfl

theorem readItems_other (fuel : Nat) (s : Session α) (different : other ≠ id) :
    (readItems fuel id s).2.1.lookup other = s.lookup other :=
  (readItems_reads fuel id s).keeps (f := fun s => s.lookup other) fun | .mk _ => readItem_other _ different

theorem giveCancel_other (s : Session α) (different : other ≠ id) :
    (s.giveCancel id).2.lookup other = s.lookup other := by
  unfold giveCancel
  split
  · split
    · exact lookup_put_other _ _ different
    · rfl
  · rfl

theorem call_other (s : Session α) (number : Nat) (plan : Plan α) (unpolled : Bool) (different : other ≠ id) :
    (s.call id number plan unpolled).2.1.lookup other = s.lookup other := by
  unfold call
  cases s.services[number]? with
  | none => rfl
  | some service =>
    dsimp only
    split
    · rfl
    · exact launch_other _ _ _ different

theorem lookup_clock (s : Session α) (now : Nanos) (id : Nat) : { s with now }.lookup id = s.lookup id := rfl

theorem acquireAwait_lookup (s : Session α) (id : Nat) : s.acquireAwait.2.1.lookup id = s.lookup id := by
  unfold acquireAwait
  dsimp only
  split
  · split
    · rfl
    · exact lookup_clock (s.withBucket _) _ id
  · rfl

theorem step_next_rest (s : Session α) (id : Nat) : (s.step (.next id)).2 = (s.readItem id).2 := by
  unfold step
  dsimp only
  split <;> (rename_i eq; rw [eq])

theorem step_collect_rest (s : Session α) (id : Nat) :
    (s.step (.collect id)).2 = (readItems (s.scriptLength id + 1) id s).2 := by
  unfold step
  dsimp only
  split <;> (rename_i eq; rw [eq])

theorem step_drain_rest (s : Session α) (most : Nat) : (s.step (.drain most)).2 = (drain most 0 s).2 := by
  unfold step
  dsimp only
  split <;> (rename_i eq; rw [eq])

theorem step_tryAcquire_rest (s : Session α) : (s.step .tryAcquire).2 = s.tryAcquire.2 := by
  unfold step
  dsimp only
  split <;> (rename_i eq; rw [eq])

theorem step_other (s : Session α) (action : Action α) (different : action.handle ≠ some other) :
    (s.step action).2.1.lookup other = s.lookup other := by
  cases action with
  | acquire id | acquireBefore id | acquireCancellable id =>
    exact launch_other _ _ _ fun same => different (congrArg some same.symm)
  | cancel id => exact giveCancel_other _ fun same => different (congrArg some same.symm)
  | poll id => exact pollHandle_other _ fun same => different (congrArg some same.symm)
  | drop id => exact release_other _ fun same => different (congrArg some same.symm)
  | call id => exact call_other _ _ _ _ fun same => different (congrArg some same.symm)
  | next id =>
    rw [step_next_rest]
    exact readItem_other _ fun same => different (congrArg some same.symm)
  | collect id =>
    rw [step_collect_rest]
    exact readItems_other _ s fun same => different (congrArg some same.symm)
  | unwrap id =>
    unfold step
    dsimp only
    split
    · exact lookup_put_other _ _ fun same => different (congrArg some same.symm)
    · rfl
  | tryAcquire =>
    rw [step_tryAcquire_rest]
    rfl
  | drain most =>
    rw [step_drain_rest]
    exact drain_lookup most 0 s other
  | acquireAwait => exact s.acquireAwait_lookup other
  | advance | setRate | contains | stats | layer => rfl
  | observe | observeDeadline | instanceOf | clone | shareService | shareLayer | callState =>
    unfold step
    dsimp only
    split <;> rfl
  | pollReady number inner =>
    unfold step pollReady
    dsimp only
    split <;> rfl

theorem step_still (s : Session α) (action : Action α) (timeless : ∀ duration, action ≠ .advance duration)
    (awake : action ≠ .acquireAwait) : (s.step action).2.1.now = s.now := by
  cases action with
  | advance duration => exact absurd rfl (timeless duration)
  | acquireAwait => exact absurd rfl awake
  | acquire id unpolled | acquireBefore id within unpolled | acquireCancellable id given unpolled =>
    exact (launch_moves s id unpolled rfl).now_eq
  | poll id => exact (s.pollHandle_moves id).now_eq
  | drop id => exact (s.release_moves id).1.now_eq
  | cancel id => exact (s.giveCancel_moves id).any.now_eq
  | tryAcquire =>
    rw [step_tryAcquire_rest]
    rfl
  | drain most =>
    rw [step_drain_rest]
    exact (drain_moves most 0 s).any.now_eq
  | next id =>
    rw [step_next_rest]
    exact (s.readItem_moves id).any.now_eq
  | collect id =>
    rw [step_collect_rest]
    exact (readItems_moves _ id s).any.now_eq
  | call id number plan unpolled =>
    show (s.call id number plan unpolled).2.1.now = s.now
    rcases s.call_cases id number plan with ⟨_,_,_,lost⟩ | ⟨_,_,_,_,_,started⟩
    · rw [(lost unpolled).2]
    · rw [(started unpolled).2]
      exact (launch_moves _ id unpolled rfl).now_eq
  | setRate | contains | stats | layer => rfl
  | observe | observeDeadline | instanceOf | clone | shareService | shareLayer | callState | unwrap =>
    unfold step
    dsimp only
    split <;> rfl
  | pollReady number inner =>
    unfold step pollReady
    dsimp only
    split <;> rfl

end Session
end LoadPacing
