import LoadPacing.Proofs.Bucket.Refusing
import LoadPacing.Proofs.Session.Waking

-- Sessions that no attempt to reserve a permit can tell apart, as their buckets refill to the same.
namespace LoadPacing

theorem Service.deadline_tuning {one two : Service} (same : two.tuning = one.tuning) (now : Nanos) :
    two.deadline now = one.deadline now := by
  unfold deadline
  rw [same]

theorem Wait.poll_alike {w : Wait} {one two : Bucket} {now : Nanos} (fresh : w.booked = none)
    (same : two.refill now = one.refill now) : w.poll now two = w.poll now one := by
  unfold poll
  rw [fresh,Bucket.reserve_alike same]

namespace Trace

-- What a step did, on whichever instance it was issued.
def unsigned (trace : Trace α) : Trace α :=
  { trace with issues := trace.issues.map fun issue => ⟨0,false,issue.request⟩ }

theorem unsigned_append (t u : Trace α) : (t ++ u).unsigned = t.unsigned ++ u.unsigned := by
  unfold unsigned
  rw [append_issues,List.map_append]
  rfl

end Trace

namespace Handle

-- Calls that have taken different instances, and everything else the same.
inductive Kin : Handle α → Handle α → Prop where
  | same (handle : Handle α) : Kin handle handle
  | called (call : Call α) (backend : Backend) : Kin (.calling call) (.calling { call with backend })

variable {handle other : Handle α} {call : Call α} {wait : Wait}

theorem Kin.standing (kin : handle.Kin other) : other.standing = handle.standing := by
  cases kin with
  | same => rfl
  | called call backend =>
    obtain ⟨_,_,_,stage⟩ := call
    cases stage <;> rfl

theorem Kin.waiting (kin : Kin (.waiting wait) other) : other = .waiting wait := by
  cases kin
  rfl

theorem Kin.calling (kin : Kin (.calling call) other) : ∃ backend, other = .calling { call with backend } := by
  cases kin with
  | same => exact ⟨call.backend,rfl⟩
  | called _ backend => exact ⟨backend,rfl⟩

theorem Kin.gate (kin : handle.Kin other) : other.wait? = handle.wait? := by
  cases kin with
  | same => rfl
  | called call backend =>
    obtain ⟨_,_,_,stage⟩ := call
    cases stage <;> rfl

theorem Kin.withWait (kin : handle.Kin other) (wait : Wait) : (handle.withWait wait).Kin (other.withWait wait) := by
  cases kin with
  | same => exact .same _
  | called call backend => exact .called { call with stage := .atGate wait } backend

theorem wait_unpolled (unpolled : handle.standing = .unpolled) : ∃ wait, handle.wait? = some wait ∧ wait.booked = none := by
  have fresh (wait : Wait) (standing : wait.standing = .unpolled) : wait.booked = none := by
    cases booked : wait.booked with
    | none => rfl
    | some ready =>
      rw [Wait.standing_held booked] at standing
      cases standing
  cases handle with
  | waiting wait => exact ⟨wait,rfl,fresh wait unpolled⟩
  | calling call =>
    obtain ⟨_,_,_,stage⟩ := call
    cases stage with
    | atGate wait => exact ⟨wait,rfl,fresh wait unpolled⟩
    | issued => cases unpolled
  | relaying | bare | finished => cases unpolled

end Handle

namespace Session
variable {one two s : Session α} {id number : Nat} {handle other : Handle α} {wait : Wait} {action : Action α}
  {unpolled : Bool}

structure Alike (one two : Session α) : Prop where
  now : two.now = one.now
  regulator : two.regulator = { one.regulator with bucket := two.regulator.bucket }
  bucket : two.regulator.bucket.refill one.now = one.regulator.bucket.refill one.now
  tunings : two.services.map Service.tuning = one.services.map Service.tuning
  handles : ∀ id, Option.Rel Handle.Kin (one.lookup id) (two.lookup id) ∨
    one.standing id = some .past ∧ two.Idle id

theorem Alike.refl (s : Session α) : s.Alike s := by
  refine ⟨rfl,rfl,rfl,rfl,fun id => .inl ?_⟩
  cases s.lookup id with
  | none => exact .none
  | some handle => exact .some (.same handle)

theorem rel_standing (rel : Option.Rel Handle.Kin (one.lookup id) (two.lookup id)) : two.standing id = one.standing id := by
  unfold standing
  generalize one.lookup id = here at rel ⊢
  generalize two.lookup id = there at rel ⊢
  cases rel with
  | none => rfl
  | some kin => exact congrArg some kin.standing

theorem Alike.idle (alike : one.Alike two) (idle : one.Idle id) : two.Idle id := by
  rcases alike.handles id with rel | ⟨_,other⟩
  · unfold Idle
    rw [rel_standing rel]
    exact idle
  · exact other

theorem Alike.put (alike : one.Alike two) (kin : handle.Kin other) (id : Nat) :
    (one.put id handle).Alike (two.put id other) := by
  obtain ⟨now,regulator,bucket,tunings,handles⟩ := alike
  refine ⟨now,regulator,bucket,tunings,?_⟩
  intro number
  by_cases equal : number = id
  · subst equal
    rw [lookup_put,lookup_put]
    exact .inl (.some kin)
  · rw [standing_put_other _ _ equal,lookup_put_other _ _ equal,lookup_put_other _ _ equal]
    unfold Idle
    rw [standing_put_other _ _ equal]
    exact handles number

theorem Alike.level (alike : one.Alike two) (regulator : Regulator) :
    { one with regulator }.Alike { two with regulator } :=
  ⟨alike.now,rfl,rfl,alike.tunings,alike.handles⟩

theorem Alike.withBucket (alike : one.Alike two) (bucket : Bucket) :
    (one.withBucket bucket).Alike (two.withBucket bucket) ∧
      (two.withBucket bucket).regulator = (one.withBucket bucket).regulator := by
  have level : (two.withBucket bucket).regulator = (one.withBucket bucket).regulator := by
    show { two.regulator with bucket } = { one.regulator with bucket }
    rw [alike.regulator]
  exact ⟨⟨alike.now,level,congrArg (·.bucket.refill one.now) level,alike.tunings,alike.handles⟩,level⟩

theorem Alike.counted (alike : one.Alike two) (first second : Nat) :
    { one with issued := first }.Alike { two with issued := second } :=
  ⟨alike.now,alike.regulator,alike.bucket,alike.tunings,alike.handles⟩

theorem Alike.clocked (alike : one.Alike two) (level : two.regulator = one.regulator) (now : Nanos) :
    { one with now }.Alike { two with now } :=
  ⟨rfl,alike.regulator,congrArg (·.bucket.refill now) level,alike.tunings,alike.handles⟩

theorem Alike.reserve (alike : one.Alike two) (terms : Terms) :
    two.regulator.bucket.reserve one.now terms = one.regulator.bucket.reserve one.now terms :=
  Bucket.reserve_alike alike.bucket terms

theorem Alike.tuning (alike : one.Alike two) (found : one.services[number]? = some service) :
    ∃ other : Service, two.services[number]? = some other ∧ other.tuning = service.tuning := by
  have same : (two.services.map Service.tuning)[number]? = (one.services.map Service.tuning)[number]? := by
    rw [alike.tunings]
  rw [List.getElem?_map,List.getElem?_map,found] at same
  exact Option.map_eq_some_iff.mp same

structure Agree (own : Option Nat) (one two : Result α β) : Prop where
  answer : two.1 = one.1
  trace : two.2.2.unsigned = one.2.2.unsigned
  standing : ∀ id, own = some id → two.2.1.standing id = one.2.1.standing id
  alike : one.2.1.Alike two.2.1
  level : two.2.1.regulator = one.2.1.regulator

theorem put_agree {answer : β} {trace : Trace α} (alike : one.Alike two) (level : two.regulator = one.regulator)
    (kin : handle.Kin other) (id : Nat) :
    Agree (some id) (answer,one.put id handle,trace) (answer,two.put id other,trace) := by
  refine ⟨rfl,rfl,?_,alike.put kin id,level⟩
  rintro _ ⟨⟩
  show (two.put id other).standing id = (one.put id handle).standing id
  rw [standing_put,standing_put,kin.standing]

theorem proceed_agree (alike : one.Alike two) (level : two.regulator = one.regulator) (id : Nat) (call : Call α)
    (backend : Backend) (pauses : Nat) :
    Agree (some id) (one.proceed id call pauses) (two.proceed id { call with backend } pauses) := by
  cases pauses with
  | succ pauses => exact put_agree alike level (.called { call with stage := .issued pauses } backend) id
  | zero =>
    unfold proceed
    dsimp only
    cases call.plan.outcome with
    | ok script => exact put_agree alike level (.same _) id
    | error failure =>
      dsimp only
      by_cases deadline : failure.isDeadline
      · rw [if_pos deadline,if_pos deadline,level,alike.now]
        exact put_agree (alike.level _) rfl (.same _) id
      · rw [if_neg deadline,if_neg deadline]
        exact put_agree alike level (.same _) id

theorem pollCall_through (call : Call α) (stage : call.stage = .atGate wait)
    (ready : (wait.poll s.now s.regulator.bucket).outcome = .ready) (id : Nat) :
    let polled := wait.poll s.now s.regulator.bucket
    let issued := { s.withBucket polled.bucket with issued := s.issued + 1 }.put id
      (.calling { call with stage := .issued call.plan.pauses })
    let proceeded := issued.proceed id call call.plan.pauses
    s.pollCall id call = (proceeded.1,proceeded.2.1,.ofPass polled.ops [call.issue] ++ proceeded.2.2) := by
  unfold pollCall pollCallGate
  rw [stage]
  dsimp only
  rw [pollGate_ready ready,if_pos rfl]
  rfl

theorem poll_agree (alike : one.Alike two) (here : one.lookup id = some handle) (there : two.lookup id = some other)
    (kin : handle.Kin other) (gate : handle.wait? = some wait) (fresh : wait.booked = none) :
    Agree (some id) (one.pollHandle id) (two.pollHandle id) := by
  have behind : other.wait? = some wait := kin.gate.trans gate
  have polled : wait.poll two.now two.regulator.bucket = wait.poll one.now one.regulator.bucket := by
    rw [alike.now]
    exact Wait.poll_alike fresh alike.bucket
  obtain ⟨settled,level⟩ := alike.withBucket (wait.poll one.now one.regulator.bucket).bucket
  by_cases ready : (wait.poll one.now one.regulator.bucket).outcome = .ready
  · have through : (wait.poll two.now two.regulator.bucket).outcome = .ready := by rw [polled,ready]
    rcases Handle.wait_cases gate with rfl | ⟨call,rfl,stage⟩
    · cases kin.waiting
      unfold pollHandle
      rw [here,there]
      dsimp only [pollWait]
      rw [pollGate_ready ready,pollGate_ready through,polled]
      exact put_agree settled level (.same _) id
    · obtain ⟨backend,rfl⟩ := kin.calling
      have counted := settled.counted (one.issued + 1) (two.issued + 1)
      have issued := counted.put (.called { call with stage := .issued call.plan.pauses } backend) id
      obtain ⟨answer,trace,standing,after,regulator⟩ := proceed_agree issued level id call backend call.plan.pauses
      have first := pollCall_through call stage ready id
      have second := pollCall_through { call with backend } stage through id
      rw [polled] at second
      unfold pollHandle
      rw [here,there]
      dsimp only
      rw [first,second]
      refine ⟨congrArg Answer.progress answer,?_,standing,after,regulator⟩
      dsimp only
      rw [Trace.unsigned_append,Trace.unsigned_append]
      exact congrArg (_ ++ ·) trace
  · have early : (wait.poll two.now two.regulator.bucket).outcome ≠ .ready := by rwa [polled]
    rw [pollHandle_stopped here gate ready,pollHandle_stopped there behind early,polled]
    refine put_agree settled level ?_ id
    split
    · exact kin.withWait _
    · exact .same _

theorem furnished_tunings {services : List Service} {service : Service} (found : services[number]? = some service)
    (backend : Backend) :
    (services.set number { service with backend }).map Service.tuning = services.map Service.tuning := by
  rw [List.map_set]
  refine List.ext_getElem? fun place => ?_
  by_cases equal : number = place
  · subst equal
    have inside := (List.getElem?_eq_some_iff.mp found).1
    rw [List.getElem?_set_self (by rwa [List.length_map]),List.getElem?_map,found]
    rfl
  · rw [List.getElem?_set_ne equal]

theorem launch_begun (idle : s.Idle id) (handle : Handle α) :
    s.launch id handle true = (.unpolled,s.put id handle,.none) := by
  have replaced : (s.forget id).put id handle = s.put id handle := by
    simp [put,forget,Registry.put,Registry.without]
  unfold launch release
  cases here : s.lookup id with
  | none => rfl
  | some found =>
    have quiet : abandon found = [] := by
      rw [abandon_standing]
      cases stands : found.standing with
      | unpolled | past => rfl
      | pending due =>
        refine absurd ?_ (idle due)
        rw [standing,here,← stands]
        rfl
    dsimp only
    rw [quiet,← replaced]
    rfl

theorem launch_at_once (idle : s.Idle id) (handle : Handle α) :
    s.launch id handle false = (s.put id handle).pollHandle id := by
  have begun := launch_begun idle handle
  have quiet : (s.release id).2.2 = .none := congrArg (·.2.2) begun
  have polled := launch_polled s id handle
  dsimp only at polled
  rwa [begun,quiet,Trace.none_append] at polled

structure Started (one two : Session α) (action : Action α) (id : Nat) (unpolled : Bool) (first second : Session α)
    (handle other : Handle α) : Prop where
  ran : one.step action = first.launch id handle unpolled
  again : two.step action = second.launch id other unpolled
  alike : first.Alike second
  kin : handle.Kin other
  standing : handle.standing = .unpolled
  place : first.standing id = one.standing id

theorem start_agree (alike : one.Alike two) (turn : one.turn action = .start id unpolled) :
    ∃ first second handle other, Started one two action id unpolled first second handle other := by
  cases action with
  | acquire own | acquireCancellable own =>
    cases turn
    exact ⟨one,two,_,_,rfl,rfl,alike,.same _,rfl,rfl⟩
  | acquireBefore own within =>
    cases turn
    refine ⟨one,two,_,_,rfl,?_,alike,.same _,rfl,rfl⟩
    unfold step
    rw [alike.now]
  | call own number plan =>
    cases found : one.services[number]? with
    | none => simp [Session.turn,found] at turn
    | some service =>
      cases deadline : service.deadline one.now with
      | none => simp [Session.turn,found,deadline] at turn
      | some terms =>
        obtain ⟨other,there,tuning⟩ := alike.tuning found
        have limit : other.deadline two.now = some terms := by
          rw [alike.now,Service.deadline_tuning tuning,deadline]
        have begun (s : Session α) {service : Service} (found : s.services[number]? = some service)
            (deadline : service.deadline s.now = some terms) : s.step (.call own number plan unpolled) =
            { s with
              services := s.services.set number { service with backend := .fresh s.instances }
              instances := s.instances + 1 }.launch own (.calling (service.call terms plan)) unpolled := by
          unfold step call
          dsimp only
          rw [found]
          dsimp only
          rw [show s.createBackend.2.now = s.now from rfl,deadline]
          rfl
        obtain ⟨same,again⟩ : own = id ∧ _ = unpolled := by simpa [Session.turn,found,deadline] using turn
        subst same again
        refine ⟨_,_,_,_,begun one found deadline,begun two there limit,?_,?_,rfl,rfl⟩
        · refine ⟨alike.now,alike.regulator,alike.bucket,?_,alike.handles⟩
          show List.map _ (two.services.set _ _) = List.map _ (one.services.set _ _)
          rw [furnished_tunings there,furnished_tunings found,alike.tunings]
        · have kin := Handle.Kin.called (service.call terms plan) other.backend
          unfold Service.call at kin ⊢
          rwa [tuning]
  | _ => cases turn

end Session
end LoadPacing
