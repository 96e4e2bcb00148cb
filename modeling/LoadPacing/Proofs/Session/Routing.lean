import Mathlib.Tactic.IntervalCases
import LoadPacing.Proofs.Session.Staff
import LoadPacing.Proofs.Session.Calls

-- A request goes to the instance that was polled for it, and no other request goes there.
namespace LoadPacing

namespace Session

def made (s : Session α) : Action α → Option (Call α)
  | .call _ number plan _ =>
    s.services[number]?.bind fun service => (service.deadline s.now).map fun terms => service.call terms plan
  | _ => none

def allMade (s : Session α) : List (Action α) → List (Call α)
  | [] => []
  | action :: rest => (s.made action).toList ++ (s.step action).2.1.allMade rest

end Session

namespace Docket
variable {d : Docket α} {s : Session α} {id : Nat}

def calls (d : Docket α) : List (Call α) := d.cases.map Case.call

theorem drop_distinct (distinct : d.present.Distinct) (id : Nat) : (d.drop id).present.Distinct := by
  unfold drop
  split
  · exact distinct
  · exact Registry.distinct_without distinct

theorem drop_absent (d : Docket α) (id : Nat) : (d.drop id).present.find id = none := by
  unfold drop
  split
  · assumption
  · exact Registry.find_without

theorem drop_calls (distinct : d.present.Distinct) (id : Nat) : (d.drop id).calls.Perm d.calls := by
  unfold drop
  cases found : d.present.find id with
  | none => exact .refl _
  | some case => exact (List.perm_middle.trans (cases_found distinct found).symm).map Case.call

theorem start_distinct (distinct : d.present.Distinct) (s : Session α) (id : Nat) (now : Nanos) :
    (d.start s id now).present.Distinct := by
  unfold start
  split
  · exact distinct
  · exact Registry.distinct_put distinct

theorem start_calls (absent : d.present.find id = none) (s : Session α) (now : Nanos) :
    (d.start s id now).calls.Perm (d.calls ++ (s.calling id).toList) := by
  unfold start
  cases s.calling id with
  | none => simp
  | some call =>
    have beside : d.beside id = d.cases := by rw [Docket.beside,Registry.without_absent absent]
    dsimp only
    rw [calls,put_cases,beside]
    exact (List.perm_append_singleton _ _).symm

theorem poll_calls (distinct : d.present.Distinct) (s : Session α) (id : Nat)
    (ran : Session.Result α (Answer α)) : (d.poll s id ran).calls.Perm d.calls := by
  unfold poll
  split
  · rename_i call case _ found
    rw [calls,put_cases]
    exact (cases_found distinct found).symm.map Case.call
  · exact .refl _

end Docket

namespace Session
variable {s : Session α} {action : Action α} {id number : Nat} {plan : Plan α} {call : Call α}

theorem made_service (made : s.made (.call id number plan unpolled) = some call) :
    ∃ service terms, s.services[number]? = some service ∧ service.deadline s.now = some terms ∧
      call = service.call terms plan := by
  obtain ⟨service,found,kept⟩ := Option.bind_eq_some_iff.mp made
  obtain ⟨terms,deadline,same⟩ := Option.map_eq_some_iff.mp kept
  exact ⟨service,terms,found,deadline,same.symm⟩

theorem turn_call (s : Session α) (id number : Nat) (plan : Plan α) (unpolled : Bool) :
    s.turn (.call id number plan unpolled) =
      if (s.made (.call id number plan unpolled)).isSome then .start id unpolled else .aside := by
  cases found : s.services[number]? with
  | none => simp [Session.turn,made,found]
  | some service => simp [Session.turn,made,found]

theorem call_launched (made : s.made (.call id number plan unpolled) = some call) :
    ∃ services instances,
      s.call id number plan true = { s with services, instances }.launch id (.calling call) true := by
  obtain ⟨service,terms,found,deadline,rfl⟩ := made_service made
  have same : s.createBackend.2.now = s.now := rfl
  unfold Session.call
  rw [found]
  dsimp only
  rw [same,deadline]
  exact ⟨_,_,rfl⟩

theorem start_made (turn : s.turn action = .start id unpolled) :
    (s.step action.left).2.1.calling id = s.made action := by
  cases action with
  | acquire other | acquireBefore other | acquireCancellable other =>
    cases turn
    exact calling_put _ _ _
  | call other number plan other =>
    rw [turn_call] at turn
    split at turn
    · rename_i some
      cases turn
      obtain ⟨call,made⟩ := Option.isSome_iff_exists.mp some
      obtain ⟨services,instances,launched⟩ := call_launched made
      rw [made]
      show (s.call id number plan true).2.1.calling id = _
      rw [launched]
      exact calling_put _ _ _
    · cases turn
  | _ => cases turn

theorem made_none (turn : ∀ id unpolled, s.turn action ≠ .start id unpolled) : s.made action = none := by
  cases action with
  | call id number plan unpolled =>
    have still := turn id unpolled
    rw [turn_call] at still
    simpa using still
  | _ => rfl

end Session

namespace Docket
variable {d : Docket α} {s : Session α}

theorem follow_calls (minds : d.Minds s) (action : Action α) :
    (d.follow s action).calls.Perm (d.calls ++ (s.made action).toList) := by
  unfold follow
  cases turn : s.turn action with
  | start id unpolled =>
    have dropped := drop_distinct minds.distinct id
    have started := start_calls (d.drop_absent id) (s.step action.left).2.1 s.now
    rw [Session.start_made turn] at started
    have begun := started.trans ((drop_calls minds.distinct id).append_right _)
    cases unpolled with
    | true => exact begun
    | false => exact (poll_calls (start_distinct dropped _ id s.now) _ id _).trans begun
  | poll id =>
    rw [Session.made_none (by simp [turn]),Option.toList_none,List.append_nil]
    exact poll_calls minds.distinct s id _
  | drop id =>
    rw [Session.made_none (by simp [turn]),Option.toList_none,List.append_nil]
    exact drop_calls minds.distinct id
  | aside =>
    rw [Session.made_none (by simp [turn]),Option.toList_none,List.append_nil]

theorem along_calls (minds : d.Minds s) (actions : List (Action α)) :
    (d.along s actions).calls.Perm (d.calls ++ s.allMade actions) := by
  induction actions generalizing d s with
  | nil => simp [along,Session.allMade]
  | cons action rest ih =>
    have later := ih (follow_keeps minds action).minds
    rw [Session.allMade,← List.append_assoc]
    exact later.trans ((follow_calls minds action).append_right _)

end Docket

namespace Session
variable {s : Session α} {actions before between : List (Action α)} {action : Action α} {number : Nat}
  {service : Service} {call : Call α}

theorem made_engaged (made : s.made action = some call) : s.engaged action = some call.backend := by
  cases action with
  | call id number plan unpolled =>
    obtain ⟨service,terms,found,_,rfl⟩ := made_service made
    rw [engaged,found]
    rfl
  | _ => cases made

theorem allMade_engaged (s : Session α) (actions : List (Action α)) :
    ((s.allMade actions).map Call.backend).Sublist (s.engagements actions) := by
  induction actions generalizing s with
  | nil => exact .refl _
  | cons action rest ih =>
    rw [allMade,engagements,List.map_append]
    refine .append ?_ (ih _)
    cases made : s.made action with
    | none => exact List.nil_sublist _
    | some call =>
      rw [made_engaged made]
      exact .refl _

theorem allMade_split (member : call ∈ s.allMade actions) :
    ∃ before action rest, actions = before ++ action :: rest ∧ (s.run before).2.made action = some call := by
  induction actions generalizing s with
  | nil => cases member
  | cons action rest ih =>
    rcases List.mem_append.mp member with now | later
    · exact ⟨[],action,rest,rfl,Option.mem_toList.mp now⟩
    · obtain ⟨before,next,after,split,made⟩ := ih later
      exact ⟨action :: before,next,after,by rw [split]; rfl,made⟩

theorem pollReady_services (found : s.services[number]? = some service) (inner : Readiness) :
    (s.pollReady number inner).2.1.services[number]? = some (service.pollReady inner) := by
  unfold pollReady
  rw [found]
  exact List.getElem?_set_self (List.getElem?_eq_some_iff.mp found).1

theorem pollReady_answered {inner : Readiness} (ready : (s.pollReady number inner).1 = .progress .ready) :
    inner = .ready ∧ ∃ service, s.services[number]? = some service := by
  unfold pollReady at ready
  cases found : s.services[number]? with
  | none => rw [found] at ready; cases ready
  | some service =>
    rw [found] at ready
    refine ⟨?_,service,rfl⟩
    cases inner with
    | ready => rfl
    | pending | failed => cases ready

theorem polled_holds {polled : Service} (found : s.services[number]? = some polled) (inner : Readiness)
    (apart : ∀ action ∈ between, ¬ action.Calls number)
    (held : (s.run (.pollReady number inner :: between)).2.services[number]? = some service) :
    service.backend.id = polled.backend.id ∧ (inner = .ready → service.backend.ready = true) := by
  obtain ⟨last,there,holds⟩ := run_holds between apart (pollReady_services found inner)
  have same : last = service := Option.some.inj (there.symm.trans held)
  rw [← same]
  refine ⟨holds.id.trans (pollReady_holds polled inner).id,?_⟩
  rintro rfl
  exact holds.ready rfl

structure Routed (s : Session α) (before : List (Action α)) (number : Nat) (service left : Service) : Prop where
  tuning : left.tuning = service.tuning
  unready : left.backend.ready = false
  other : left.backend.id ≠ service.backend.id
  unused : ∀ backend ∈ s.engagements before, backend.id ≠ service.backend.id ∧ backend.id ≠ left.backend.id
  polled : ∀ early inner between, before = early ++ .pollReady number inner :: between →
    (∀ action ∈ between, ¬ action.Calls number) →
    ∀ polled, (s.run early).2.services[number]? = some polled →
      service.backend.id = polled.backend.id ∧ (inner = .ready → service.backend.ready = true)

theorem call_routed (staffed : s.Staffed []) (found : (s.run before).2.services[number]? = some service)
    (id : Nat) (plan : Plan α) (unpolled : Bool) :
    ∃ left, (s.run (before ++ [.call id number plan unpolled])).2.services[number]? = some left ∧
      Routed s before number service left := by
  obtain ⟨distinct,below⟩ := run_staffed staffed before
  have staff := call_staff found id plan unpolled
  have services := congrArg Prod.fst staff
  have inside := (List.getElem?_eq_some_iff.mp found).1
  have present : service.backend.id ∈ backendIds (s.run before).2.services :=
    List.mem_map_of_mem (List.mem_of_getElem? found)
  refine ⟨{ service with backend := .fresh (s.run before).2.instances },?_,rfl,rfl,?_,?_,?_⟩
  · rw [run_state_append]
    refine Eq.trans (congrArg (fun services : List Service => services[number]?) services) ?_
    exact List.getElem?_set_self inside
  · exact fun same => Nat.lt_irrefl _ (same ▸ below _ (List.mem_append_right _ present))
  · intro backend member
    have gone : backend.id ∈ [] ++ (s.engagements before).map Backend.id := List.mem_map_of_mem member
    refine ⟨?_,Nat.ne_of_lt (below _ (List.mem_append_left _ gone))⟩
    exact fun same => (List.nodup_append.mp distinct).2.2 _ gone _ present same
  · rintro early inner between rfl apart polled here
    rw [run_state_append] at found
    exact polled_holds here inner apart found

def Places (s : Session α) (actions : List (Action α)) (case : Case α) : Prop :=
  ∃ before id number plan unpolled rest service, actions = before ++ .call id number plan unpolled :: rest ∧
    (s.run before).2.services[number]? = some service ∧
    case.issues = if case.Completed then [⟨service.backend.id,service.backend.ready,plan.request⟩] else []

theorem made_places {case : Case α} (settled : case.Settled) (member : case.call ∈ s.allMade actions) :
    s.Places actions case := by
  obtain ⟨before,action,rest,split,made⟩ := allMade_split member
  cases action with
  | call id number plan unpolled =>
    obtain ⟨service,terms,found,_,called⟩ := made_service made
    refine ⟨before,id,number,plan,unpolled,rest,service,split,found,?_⟩
    rw [settled.once,called]
    rfl
  | _ => cases made

theorem issues_engaged (cases : List (Case α)) (settled : ∀ case ∈ cases, case.Settled) :
    ((cases.flatMap Case.issues).map Issue.instanceId).Sublist (cases.map fun case => case.call.backend.id) := by
  induction cases with
  | nil => exact .refl _
  | cons case rest ih =>
    obtain ⟨first,others⟩ := List.forall_mem_cons.mp settled
    rw [List.flatMap_cons,List.map_append,first.once]
    split
    · exact (ih others).cons_cons _
    · exact (ih others).cons _

-- Every call is preceded by a poll of its service that answered ready, with no other call between.
def Prepared (s : Session α) (actions : List (Action α)) : Prop :=
  ∀ before id number plan unpolled rest, actions = before ++ .call id number plan unpolled :: rest →
    ∃ early inner between, before = early ++ .pollReady number inner :: between ∧
      ((s.run early).2.step (.pollReady number inner)).1 = .progress .ready ∧
      ∀ action ∈ between, ¬ action.Calls number

theorem made_distinct (engaged : ((s.engagements actions).map Backend.id).Nodup) :
    ((s.allMade actions).map fun call => call.backend.id).Nodup := by
  have named := (s.allMade_engaged actions).map Backend.id
  rw [List.map_map] at named
  exact engaged.sublist named

theorem issue_prepared {case : Case α} {issue : Issue α} (places : s.Places actions case) (prepared : s.Prepared actions)
    (mine : issue ∈ case.issues) : issue.ready = true ∧
      ∃ early number rest polled, actions = early ++ .pollReady number .ready :: rest ∧
        (s.run early).2.services[number]? = some polled ∧ polled.backend.id = issue.instanceId := by
  obtain ⟨before,id,number,plan,unpolled,rest,service,split,found,once⟩ := places
  obtain ⟨early,inner,between,rfl,ready,apart⟩ := prepared before id number plan unpolled rest split
  obtain ⟨rfl,polled,here⟩ := pollReady_answered ready
  rw [run_state_append] at found
  obtain ⟨same,flagged⟩ := polled_holds here .ready apart found
  rw [once] at mine
  split at mine
  · cases List.mem_singleton.mp mine
    refine ⟨flagged rfl,early,number,between ++ .call id number plan unpolled :: rest,polled,?_,here,same.symm⟩
    rw [split,List.append_assoc,List.cons_append]
  · cases mine

-- The instance is the one polled since the call before, and not the clone that takes its place.
theorem requests_routed (idle : s.handles = []) (staffed : s.Staffed []) (actions : List (Action α)) :
    let docket := Docket.empty.along s actions
    (s.issues actions).Perm (docket.cases.flatMap Case.issues) ∧
    (∀ case ∈ docket.cases, s.Places actions case) ∧
    (∀ before id number plan unpolled rest, actions = before ++ .call id number plan unpolled :: rest →
      ∀ service, (s.run before).2.services[number]? = some service →
        ∃ left, (s.run (before ++ [.call id number plan unpolled])).2.services[number]? = some left ∧
          Routed s before number service left) ∧
    ((s.engagements actions).map Backend.id).Nodup ∧
    ((s.issues actions).map Issue.instanceId).Nodup ∧
    (s.Prepared actions → ∀ issue ∈ s.issues actions, issue.ready = true ∧
      ∃ early number rest polled, actions = early ++ .pollReady number .ready :: rest ∧
        (s.run early).2.services[number]? = some polled ∧ polled.backend.id = issue.instanceId) := by
  intro docket
  have empty := Docket.empty_minds idle
  obtain ⟨minds,perm⟩ := Docket.along_keeps empty actions
  have settled : ∀ case ∈ docket.cases, case.Settled := by
    intro case member
    obtain ⟨left,reaches⟩ := minds.reaches case member
    exact reaches.settled
  have calls : docket.calls.Perm (s.allMade actions) := Docket.along_calls empty actions
  have issued : (s.issues actions).Perm (docket.cases.flatMap Case.issues) := perm.symm
  have places : ∀ case ∈ docket.cases, s.Places actions case := by
    intro case member
    exact made_places (settled case member) (calls.mem_iff.mp (List.mem_map_of_mem member))
  have engaged : ((s.engagements actions).map Backend.id).Nodup :=
    (List.nodup_append.mp (run_staffed staffed actions).distinct).1
  refine ⟨issued,places,?_,engaged,?_,?_⟩
  · intro before id number plan unpolled rest _ service found
    exact call_routed staffed found id plan unpolled
  · have held : (docket.cases.map fun case => case.call.backend.id).Nodup := by
      have same := (calls.map fun call => call.backend.id).nodup_iff.mpr (made_distinct engaged)
      rwa [Docket.calls,List.map_map] at same
    exact (issued.map Issue.instanceId).nodup_iff.mpr (held.sublist (issues_engaged docket.cases settled))
  · intro prepared issue member
    obtain ⟨case,among,mine⟩ := List.mem_flatMap.mp (issued.mem_iff.mp member)
    exact issue_prepared (places case among) prepared mine

-- The first of three calls is dropped and the others are issued in the order of their polls.
theorem requests_routed_three_calls :
    let opened : Session Nat := ⟨0,⟨1,100,10,none,⟨10,1,1,0⟩⟩,.of .default,[⟨.fresh 0,⟨50,0,none⟩⟩],[],1,0⟩
    let asks : Nat → Plan Nat := fun request => ⟨some request,0,.ok []⟩
    let actions : List (Action Nat) :=
      [.clone 0,.pollReady 1 .ready,.pollReady 0 .ready,.call 0 0 (asks 7) true,.pollReady 0 .ready,
        .call 1 1 (asks 8) true,.call 2 0 (asks 9) true,.poll 2,.drop 0,.advance Nanos.perSecond,.poll 1]
    opened.issues actions = [⟨2,true,some 9⟩,⟨1,true,some 8⟩] ∧
    (opened.engagements actions).map Backend.id = [0,1,2] ∧
    (opened.run actions).2.services.map (fun service => service.backend) = [⟨4,false⟩,⟨3,false⟩] ∧
    ((opened.engagements actions).map Backend.id).Nodup ∧
    ∀ issue ∈ opened.issues actions, issue.ready = true ∧
      ∃ early number rest polled, actions = early ++ .pollReady number .ready :: rest ∧
        (opened.run early).2.services[number]? = some polled ∧ polled.backend.id = issue.instanceId := by
  intro opened asks actions
  have staffed : opened.Staffed [] := ⟨by decide,by decide⟩
  have prepared : opened.Prepared actions := by
    intro before id number plan unpolled rest split
    have there : actions[before.length]? = some (.call id number plan unpolled) := by rw [split]; simp
    have front : before = actions.take before.length := by rw [split]; simp
    have inside : before.length < 11 := (List.getElem?_eq_some_iff.mp there).1
    generalize before.length = n at there front inside
    subst front
    interval_cases n <;> cases there
    · exact ⟨actions.take 2,.ready,[],rfl,rfl,by decide⟩
    · exact ⟨actions.take 1,.ready,(actions.take 5).drop 2,rfl,rfl,by decide⟩
    · exact ⟨actions.take 4,.ready,[.call 1 1 (asks 8) true],rfl,rfl,by decide⟩
  obtain ⟨_,_,_,engaged,_,ready⟩ := requests_routed rfl staffed actions
  exact ⟨by decide +kernel,by decide +kernel,by decide +kernel,engaged,ready prepared⟩

end Session
end LoadPacing
