import LoadPacing.Proofs.Session.Frame
import LoadPacing.Proofs.Session.Openings

-- A new instance has a number that no other had before; a call takes it along and leaves a clone.
namespace LoadPacing

def Action.Calls (number : Nat) : Action α → Prop
  | .call _ other _ _ => other = number
  | _ => False

instance (number : Nat) (action : Action α) : Decidable (action.Calls number) := by
  cases action <;> unfold Action.Calls <;> infer_instance

theorem Service.new_fresh {backend : Backend} {service : Service}
    (made : Service.new backend settings shared now = .ok (service,regulator)) : service = ⟨backend,.of settings⟩ := by
  unfold Service.new at made
  split at made
  · cases made
  · split at made
    · cases made
    · cases made
      rfl

namespace Session
variable {s after : Session α}

def staff (s : Session α) : List Service × Nat := (s.services,s.instances)

def engaged (s : Session α) : Action α → Option Backend
  | .call _ number _ _ => s.services[number]?.map Service.backend
  | _ => none

def engagements (s : Session α) : List (Action α) → List Backend
  | [] => []
  | action :: rest => (s.engaged action).toList ++ (s.step action).2.1.engagements rest

theorem release_staff (s : Session α) (id : Nat) : (s.release id).2.1.staff = s.staff := by
  unfold release
  cases s.lookup id <;> rfl

theorem pollGate_staff (s : Session α) (id : Nat) (wait : Wait) (waiting : Wait → Handle α) (through : Handle α)
    (issues : List (Issue α)) : (s.pollGate id wait waiting through issues).2.1.staff = s.staff := by
  unfold pollGate
  dsimp only
  split <;> rfl

theorem proceed_staff (s : Session α) (id : Nat) (call : Call α) (pauses : Nat) :
    (s.proceed id call pauses).2.1.staff = s.staff := by
  cases pauses with
  | succ pauses => rfl
  | zero =>
    unfold proceed
    cases call.plan.outcome with
    | ok script => rfl
    | error failure => dsimp only; split <;> rfl

theorem pollCall_staff (s : Session α) (id : Nat) (call : Call α) : (s.pollCall id call).2.1.staff = s.staff := by
  unfold pollCall
  split
  · exact s.proceed_staff id call _
  · rename_i wait _
    have gated : (s.pollCallGate id call wait).2.1.staff = s.staff := s.pollGate_staff id wait _ _ _
    dsimp only
    split
    · exact (proceed_staff _ id call _).trans gated
    · exact gated

theorem pollHandle_staff (s : Session α) (id : Nat) : (s.pollHandle id).2.1.staff = s.staff := by
  unfold pollHandle
  split
  · rfl
  · exact s.pollGate_staff id _ _ _ _
  · exact s.pollCall_staff id _
  · rfl

theorem launch_staff (s : Session α) (id : Nat) (handle : Handle α) (unpolled : Bool) :
    (s.launch id handle unpolled).2.1.staff = s.staff := by
  have started : ((s.release id).2.1.put id handle).staff = s.staff := s.release_staff id
  unfold launch
  cases unpolled with
  | true => exact started
  | false => exact (pollHandle_staff _ id).trans started

theorem drain_staff (most taken : Nat) (s : Session α) : (drain most taken s).2.1.staff = s.staff :=
  (drain_tries most taken s).keeps fun | .mk _ => rfl

theorem clocked_staff (s : Session α) (now : Nanos) : { s with now }.staff = s.staff := rfl

theorem acquireAwait_staff (s : Session α) : s.acquireAwait.2.1.staff = s.staff := by
  unfold acquireAwait
  dsimp only
  split
  · rename_i ready bucket _
    split
    · rfl
    · exact (s.withBucket bucket).clocked_staff _
  · rfl

theorem readItem_staff (s : Session α) (id : Nat) : (s.readItem id).2.1.staff = s.staff := by
  unfold readItem
  split
  · rfl
  · dsimp only
    split <;> rfl
  · rfl

theorem readItems_staff (fuel id : Nat) (s : Session α) : (readItems fuel id s).2.1.staff = s.staff :=
  (readItems_reads fuel id s).keeps fun | .mk _ => readItem_staff _ id

-- What a step does to the services and to the numbers of instances.
inductive Staffing (s : Session α) : Action α → List Service × Nat → Prop where
  | kept {action : Action α} (free : s.engaged action = none) : Staffing s action s.staff
  | joined {action : Action α} (free : s.engaged action = none) (tuning : Tuning) :
      Staffing s action (s.services ++ [⟨.fresh s.instances,tuning⟩],s.instances + 1)
  -- Made for a service that was refused.
  | unused {action : Action α} (free : s.engaged action = none) :
      Staffing s action (s.services,s.instances + 1)
  | polled {number : Nat} {service : Service} {inner : Readiness} (found : s.services[number]? = some service) :
      Staffing s (.pollReady number inner) (s.services.set number (service.pollReady inner),s.instances)
  | called {id number : Nat} {service : Service} {plan : Plan α} {unpolled : Bool}
      (found : s.services[number]? = some service) :
      Staffing s (.call id number plan unpolled)
        (s.services.set number { service with backend := .fresh s.instances },s.instances + 1)

variable {action : Action α} {number : Nat} {service : Service} {gone : List Nat}

theorem Staffing.same (free : s.engaged action = none) (same : after.staff = s.staff) :
    Staffing s action after.staff := by
  rw [same]
  exact .kept free

theorem call_staff (found : s.services[number]? = some service) (id : Nat) (plan : Plan α) (unpolled : Bool) :
    (s.call id number plan unpolled).2.1.staff =
      (s.services.set number { service with backend := .fresh s.instances },s.instances + 1) := by
  unfold call
  rw [found]
  dsimp only
  split
  · rfl
  · exact launch_staff _ id _ unpolled

theorem step_staffing (s : Session α) (action : Action α) : Staffing s action (s.step action).2.1.staff := by
  cases action with
  | call id number plan unpolled =>
    cases found : s.services[number]? with
    | none =>
      have lost : s.call id number plan unpolled = (.noService,s,.none) := by unfold call; rw [found]
      refine .same ?_ ?_
      · rw [engaged,found]
        rfl
      · rw [step,lost]
    | some service =>
      rw [step,call_staff found]
      exact .called found
  | pollReady number inner =>
    unfold step pollReady
    dsimp only
    split
    · exact .kept rfl
    · rename_i found
      exact .polled found
  | clone number =>
    unfold step
    dsimp only
    split
    · exact .kept rfl
    · rename_i service _
      exact .joined rfl service.tuning
  | layer => exact .joined rfl s.tuning
  | shareService settings =>
    unfold step
    dsimp only
    cases opened : Service.new s.createBackend.1 settings (some s.regulator) s.now with
    | error fault => exact .unused rfl
    | ok made =>
      obtain ⟨service,regulator⟩ := made
      rw [Service.new_fresh opened]
      exact .joined rfl (.of settings)
  | shareLayer settings =>
    unfold step
    dsimp only
    split
    · exact .kept rfl
    · exact .joined rfl _
  | acquire id unpolled | acquireBefore id within unpolled | acquireCancellable id given unpolled =>
    exact .same rfl (launch_staff s id _ unpolled)
  | poll id => exact .same rfl (s.pollHandle_staff id)
  | drop id => exact .same rfl (s.release_staff id)
  | tryAcquire => rw [step_tryAcquire_rest]; exact .kept rfl
  | drain most => rw [step_drain_rest]; exact .same rfl (drain_staff most 0 s)
  | next id => rw [step_next_rest]; exact .same rfl (s.readItem_staff id)
  | collect id => rw [step_collect_rest]; exact .same rfl (readItems_staff _ id s)
  | acquireAwait => exact .same rfl s.acquireAwait_staff
  | cancel id =>
    refine .same rfl ?_
    unfold step giveCancel
    dsimp only
    split
    · split <;> rfl
    · rfl
  | advance | setRate | contains | stats => exact .kept rfl
  | observe | observeDeadline | instanceOf | callState | unwrap =>
    refine .same rfl ?_
    unfold step
    dsimp only
    split <;> rfl

def backendIds (services : List Service) : List Nat := services.map fun service => service.backend.id

theorem replaced_ids {services : List Service} (found : services[number]? = some service) (next : Service) :
    (service.backend.id :: backendIds (services.set number next)).Perm
      (next.backend.id :: backendIds services) := by
  obtain ⟨inside,here⟩ := List.getElem?_eq_some_iff.mp found
  obtain ⟨front,back,whole,_,replaced⟩ := (List.exists_of_set inside : ∃ front back, _ ∧ _ ∧ services.set number next = _)
  rw [here] at whole
  rw [replaced,whole]
  unfold backendIds
  simp only [List.map_append,List.map_cons]
  exact (List.perm_middle.cons _).trans ((List.Perm.swap _ _ _).trans (List.perm_middle.symm.cons _))

structure Staffed (s : Session α) (gone : List Nat) : Prop where
  distinct : (gone ++ backendIds s.services).Nodup
  below : ∀ id ∈ gone ++ backendIds s.services, id < s.instances

theorem Staffed.keep (staffed : s.Staffed gone)
    (same : (backendIds after.services).Perm (backendIds s.services)) (grown : s.instances ≤ after.instances) :
    after.Staffed gone := by
  have moved := same.append_left gone
  refine ⟨moved.nodup_iff.mpr staffed.distinct,?_⟩
  intro id member
  exact Nat.lt_of_lt_of_le (staffed.below id (moved.mem_iff.mp member)) grown

theorem Staffed.recruit {left : List Nat} (staffed : s.Staffed gone)
    (moved : (left ++ backendIds after.services).Perm (s.instances :: (gone ++ backendIds s.services)))
    (counted : after.instances = s.instances + 1) : after.Staffed left := by
  have fresh : s.instances ∉ gone ++ backendIds s.services := fun among => Nat.lt_irrefl _ (staffed.below _ among)
  refine ⟨moved.nodup_iff.mpr (List.nodup_cons.mpr ⟨fresh,staffed.distinct⟩),?_⟩
  intro id member
  rw [counted]
  rcases List.mem_cons.mp (moved.mem_iff.mp member) with rfl | old
  · exact Nat.lt_succ_self _
  · exact Nat.lt_succ_of_lt (staffed.below id old)

theorem step_staffed (staffed : s.Staffed gone) (action : Action α) :
    (s.step action).2.1.Staffed (gone ++ (s.engaged action).toList.map Backend.id) := by
  have staffing := s.step_staffing action
  generalize (s.step action).2.1 = after at staffing ⊢
  generalize staff : after.staff = next at staffing
  obtain ⟨services,instances⟩ := Prod.ext_iff.mp staff
  dsimp only [Session.staff] at services instances
  cases staffing with
  | kept free =>
    rw [free,Option.toList_none,List.map_nil,List.append_nil]
    exact staffed.keep (.of_eq (congrArg backendIds services)) (Nat.le_of_eq instances.symm)
  | unused free =>
    rw [free,Option.toList_none,List.map_nil,List.append_nil]
    exact staffed.keep (.of_eq (congrArg backendIds services)) (instances ▸ Nat.le_succ _)
  | joined free tuning =>
    rw [free,Option.toList_none,List.map_nil,List.append_nil]
    refine staffed.recruit ?_ instances
    rw [services,backendIds,List.map_append,← List.append_assoc]
    exact List.perm_append_singleton _ _
  | @polled number service inner found =>
    rw [show s.engaged (.pollReady number inner) = none from rfl,Option.toList_none,List.map_nil,List.append_nil]
    refine staffed.keep ?_ (Nat.le_of_eq instances.symm)
    have same : (service.pollReady inner).backend.id = service.backend.id := by cases inner <;> rfl
    have moved := replaced_ids found (service.pollReady inner)
    rw [same] at moved
    rw [services]
    exact (List.perm_cons _).mp moved
  | @called id number service plan unpolled found =>
    refine staffed.recruit ?_ instances
    have moved := replaced_ids found { service with backend := .fresh s.instances }
    have engaged : s.engaged (.call id number plan unpolled) = some service.backend := by rw [Session.engaged,found]; rfl
    rw [engaged,services,Option.toList_some,List.map_singleton,List.append_assoc,List.singleton_append]
    exact (moved.append_left gone).trans List.perm_middle

theorem run_staffed (staffed : s.Staffed gone) (actions : List (Action α)) :
    (s.run actions).2.Staffed (gone ++ (s.engagements actions).map Backend.id) := by
  induction actions generalizing s gone with
  | nil =>
    rw [engagements,List.map_nil,List.append_nil]
    exact staffed
  | cons action rest ih =>
    have later := ih (step_staffed staffed action)
    rw [engagements,List.map_append,← List.append_assoc]
    exact later

theorem opened_staffed
    (opened : gate rate burst = .ok s ∨ ofLayer settings = .ok s ∨ ofLayerOver shared settings = .ok s ∨
      ofService settings = .ok s ∨ ofServiceOver shared settings = .ok s) : s.Staffed [] := by
  have one (tuning : Tuning) (regulator : Regulator) :
      (withService ⟨.fresh 0,tuning⟩ regulator : Session α).Staffed [] :=
    ⟨List.pairwise_singleton _ 0,List.forall_mem_singleton.mpr Nat.zero_lt_one⟩
  rcases opened with gated | layer | layerOver | service | serviceOver
  · unfold gate at gated
    split at gated
    · cases gated
    · cases gated
      exact ⟨List.nodup_nil,List.forall_mem_nil _⟩
  · unfold ofLayer at layer
    split at layer
    · cases layer
    · cases layer
      exact one _ _
  · unfold ofLayerOver at layerOver
    split at layerOver
    · cases layerOver
    · split at layerOver
      · cases layerOver
      · cases layerOver
        exact one _ _
  · unfold ofService at service
    split at service
    · cases service
    · rename_i made
      cases service
      rw [Service.new_fresh made]
      exact one _ _
  · unfold ofServiceOver at serviceOver
    split at serviceOver
    · cases serviceOver
    · split at serviceOver
      · cases serviceOver
      · rename_i made
        cases serviceOver
        rw [Service.new_fresh made]
        exact one _ _

structure Holds (now before : Service) : Prop where
  tuning : now.tuning = before.tuning
  id : now.backend.id = before.backend.id
  ready : before.backend.ready = true → now.backend.ready = true

theorem Holds.trans {first middle last : Service} (later : Holds last middle) (sooner : Holds middle first) :
    Holds last first :=
  ⟨later.tuning.trans sooner.tuning,later.id.trans sooner.id,fun ready => later.ready (sooner.ready ready)⟩

theorem pollReady_holds (service : Service) (inner : Readiness) : Holds (service.pollReady inner) service := by
  cases inner with
  | ready => exact ⟨rfl,rfl,fun _ => rfl⟩
  | pending | failed => exact ⟨rfl,rfl,id⟩

theorem step_holds (apart : ¬ action.Calls number) (found : s.services[number]? = some service) :
    ∃ held, (s.step action).2.1.services[number]? = some held ∧ Holds held service := by
  have same : Holds service service := ⟨rfl,rfl,id⟩
  have staffing := s.step_staffing action
  generalize (s.step action).2.1 = after at staffing ⊢
  generalize staff : after.staff = next at staffing
  have services : after.services = next.1 := congrArg Prod.fst staff
  rw [services]
  cases staffing with
  | kept | unused => exact ⟨service,found,same⟩
  | joined =>
    have inside : number < s.services.length := (List.getElem?_eq_some_iff.mp found).1
    exact ⟨service,by rw [List.getElem?_append_left inside]; exact found,same⟩
  | @polled other polled inner here =>
    by_cases equal : other = number
    · subst equal
      rw [found] at here
      cases here
      exact ⟨_,List.getElem?_set_self (List.getElem?_eq_some_iff.mp found).1,pollReady_holds service inner⟩
    · exact ⟨service,by rw [List.getElem?_set_ne equal]; exact found,same⟩
  | @called id other called plan unpolled here =>
    exact ⟨service,by rw [List.getElem?_set_ne apart]; exact found,same⟩

theorem run_holds (actions : List (Action α)) (apart : ∀ action ∈ actions, ¬ action.Calls number)
    (found : s.services[number]? = some service) :
    ∃ held, (s.run actions).2.services[number]? = some held ∧ Holds held service := by
  induction actions generalizing s service with
  | nil => exact ⟨service,found,rfl,rfl,id⟩
  | cons action rest ih =>
    obtain ⟨first,others⟩ := List.forall_mem_cons.mp apart
    obtain ⟨middle,here,held⟩ := step_holds first found
    obtain ⟨last,there,later⟩ := ih others here
    exact ⟨last,there,later.trans held⟩

end Session
end LoadPacing
