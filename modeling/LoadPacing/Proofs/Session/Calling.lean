import LoadPacing.Proofs.Session.Frame

-- The calls among the handles.
namespace LoadPacing

def Handle.call? : Handle α → Option (Call α)
  | .calling call => some call
  | .waiting _ | .relaying _ | .bare _ | .finished => none

def Call.Made (call : Call α) (now : Nanos) : Prop :=
  ∃ terms, call.stage = .atGate (.start terms .absent) ∧
    match call.tuning.timeout with
    | none => terms = .anyTime
    | some timeout => terms = .by ((now + timeout : Nat) : Int)

theorem Service.call_made {service : Service} (deadline : service.deadline now = some terms) (plan : Plan α) :
    (service.call terms plan).Made now := by
  refine ⟨terms,rfl,?_⟩
  unfold Service.deadline at deadline
  show match service.tuning.timeout with | none => _ | some timeout => _
  cases limit : service.tuning.timeout with
  | none =>
    rw [limit] at deadline
    exact (Option.some.inj deadline).symm
  | some timeout =>
    rw [limit] at deadline
    obtain ⟨instant,kept,rfl⟩ := Option.map_eq_some_iff.mp deadline
    unfold Nanos.after at kept
    split at kept
    · cases kept
      rfl
    · cases kept

-- The action with its new handle left unpolled.
def Action.left : Action α → Action α
  | .acquire id _ => .acquire id true
  | .acquireBefore id within _ => .acquireBefore id within true
  | .acquireCancellable id given _ => .acquireCancellable id given true
  | .call id service plan _ => .call id service plan true
  | action => action

namespace Session
variable {s after : Session α} {id other : Nat} {call : Call α}

def calling (s : Session α) (id : Nat) : Option (Call α) := (s.lookup id).bind Handle.call?

theorem calling_found (found : s.calling id = some call) : s.lookup id = some (.calling call) := by
  obtain ⟨handle,here,same⟩ := Option.bind_eq_some_iff.mp found
  cases handle with
  | calling other => rw [here,Option.some.inj same]
  | waiting | relaying | bare | finished => cases same

theorem calling_put (s : Session α) (id : Nat) (handle : Handle α) :
    (s.put id handle).calling id = handle.call? := by
  unfold calling
  rw [lookup_put]
  rfl

theorem release_calling (s : Session α) (id : Nat) : (s.release id).2.1.calling id = none := by
  unfold calling
  rw [(s.release_moves id).2]
  rfl

theorem release_trace (s : Session α) (id : Nat) : ∃ ops, (s.release id).2.2 = .ofOps ops := by
  unfold release
  cases s.lookup id with
  | none => exact ⟨[],rfl⟩
  | some handle => exact ⟨abandon handle,rfl⟩

theorem readItem_calling (s : Session α) (id : Nat) : (s.readItem id).2.1.calling id = s.calling id := by
  unfold readItem
  split
  · rename_i here
    rw [calling_put]
    simp [calling,here,Handle.call?]
  · rename_i relay here
    have idle : s.calling id = none := by simp [calling,here,Handle.call?]
    have put : (s.put id (.relaying relay.next.2.1)).calling id = none := calling_put _ _ _
    rw [idle]
    dsimp only
    split <;> exact put
  · rfl

theorem readItems_calling (fuel id : Nat) (s : Session α) : (readItems fuel id s).2.1.calling id = s.calling id :=
  (readItems_reads fuel id s).keeps (f := fun s => s.calling id) fun | .mk _ => readItem_calling _ id

theorem giveCancel_calling (s : Session α) (id : Nat) : (s.giveCancel id).2.calling id = s.calling id := by
  unfold giveCancel
  split
  · rename_i here
    split
    · rw [calling_put]
      simp [calling,here,Handle.call?]
    · rfl
  · rfl

theorem aside_calling {action : Action α} (turn : s.turn action = .aside) (id : Nat) :
    (s.step action).2.1.calling id = s.calling id := by
  by_cases own : action.handle = some id
  · cases action with
    | cancel other => cases own; exact s.giveCancel_calling id
    | next other =>
      cases own
      rw [step_next_rest]
      exact s.readItem_calling id
    | collect other =>
      cases own
      rw [step_collect_rest]
      exact readItems_calling (s.scriptLength id + 1) id s
    | callState other =>
      unfold step
      dsimp only
      split <;> rfl
    | unwrap other =>
      cases own
      unfold step
      dsimp only
      split
      · rename_i here
        rw [calling_put]
        simp [calling,here,Handle.call?]
      · rfl
    | call other number plan unpolled =>
      rcases s.call_cases other number plan with ⟨services,instances,answer,lost⟩ | ⟨_,_,_,_,_,started⟩
      · rw [show s.step (.call other number plan unpolled) = _ from (lost unpolled).2]
        rfl
      · rw [(started unpolled).1] at turn
        cases turn
    | acquire | acquireBefore | acquireCancellable | poll | drop => cases turn
    | _ => cases own
  · unfold calling
    rw [step_other s action own]

theorem start_launched {action : Action α} (turn : s.turn action = .start id unpolled) :
    ∃ services instances handle, handle.standing = .unpolled ∧
      (∀ call, handle.call? = some call → call.Made s.now) ∧
      s.step action = { s with services, instances }.launch id handle unpolled ∧
      s.step action.left = { s with services, instances }.launch id handle true := by
  cases action with
  | acquire other | acquireBefore other | acquireCancellable other =>
    cases turn
    refine ⟨s.services,s.instances,_,rfl,?_,rfl,rfl⟩
    intro call same
    cases same
  | call other number plan =>
    rcases s.call_cases other number plan with ⟨_,_,_,lost⟩ | ⟨services,instances,service,terms,deadline,started⟩
    · rw [(lost _).1] at turn
      cases turn
    · rw [(started _).1] at turn
      cases turn
      refine ⟨services,instances,_,rfl,?_,(started _).2,(started _).2⟩
      intro call same
      cases same
      exact service.call_made deadline plan
  | _ => cases turn

theorem launch_polled (s : Session α) (id : Nat) (handle : Handle α) :
    let opened := (s.launch id handle true).2.1
    s.launch id handle false =
      ((opened.pollHandle id).1,(opened.pollHandle id).2.1,(s.release id).2.2 ++ (opened.pollHandle id).2.2) := rfl

def issues (s : Session α) (actions : List (Action α)) : List (Issue α) :=
  (s.run actions).1.flatMap fun ran => ran.2.issues

theorem move_issued (move : Move s trace after) : after.issued = s.issued + trace.issues.length := by
  cases move with
  | aside move => cases move <;> rfl
  | start | release => rfl
  | pollWait => unfold pollGate; dsimp only; split <;> rfl
  | pollCall => unfold pollCallGate pollGate; dsimp only; split <;> rfl

theorem moves_issued (moves : Moves Move s trace after) : after.issued = s.issued + trace.issues.length := by
  induction moves with
  | nil => rfl
  | cons move _ ih => rw [ih,move_issued move,Trace.append_issues,List.length_append,Nat.add_assoc]

theorem step_issued (s : Session α) (action : Action α) :
    (s.step action).2.1.issued = s.issued + (s.step action).2.2.issues.length := by
  rcases (s.step_stepped action).moves with ⟨rate,_,after,trace⟩ | ⟨_,middle,now,moves,_,after⟩
  · rw [after,trace]
    rfl
  · have clocked : (s.step action).2.1.issued = middle.issued := by rw [after]
    rw [clocked]
    exact moves_issued moves

theorem run_issued (s : Session α) (actions : List (Action α)) :
    (s.run actions).2.issued = s.issued + (s.issues actions).length := by
  induction actions generalizing s with
  | nil => rfl
  | cons action rest ih =>
    have issues : s.issues (action :: rest) = (s.step action).2.2.issues ++ (s.step action).2.1.issues rest := rfl
    rw [issues,List.length_append,← Nat.add_assoc,← step_issued]
    exact ih _

end Session
end LoadPacing
