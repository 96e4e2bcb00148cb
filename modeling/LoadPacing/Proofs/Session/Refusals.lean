import LoadPacing.Proofs.Session.Alike
import LoadPacing.Proofs.Session.Omission
import LoadPacing.Proofs.Session.Staff
import LoadPacing.Proofs.Session.Waits

-- An attempt that comes to nothing leaves the refill behind, and no later one at that instant can tell.
namespace LoadPacing

namespace Wait
variable {w : Wait} {b : Bucket} {now : Nanos}

theorem rule_undenied (come given : Prop) [Decidable come] [Decidable given] :
    ¬ (Fate.ofOutcome (rule come given) = .timedOut ∨ Fate.ofOutcome (rule come given) = .overflowed) := by
  unfold rule
  split
  · simp [Fate.ofOutcome]
  · split <;> simp [Fate.ofOutcome]

theorem poll_denied (fresh : w.booked = none)
    (denied : Fate.ofOutcome (w.poll now b).outcome = .timedOut ∨ Fate.ofOutcome (w.poll now b).outcome = .overflowed) :
    ∃ outcome, w.poll now b = ⟨outcome,w,b.refill now,[.reserve now w.terms]⟩ ∧ outcome ≠ .ready ∧ outcome ≠ .pending ∧
      (b.reserve now w.terms).1.permits = 0 := by
  cases told : (b.refill now).readyAt now with
  | none => exact ⟨_,poll_lost fresh told,nofun,nofun,by rw [Bucket.reserve_lost told]; rfl⟩
  | some ready =>
    by_cases accepted : w.terms.Accept ready
    · rw [(poll_first fresh told accepted).1] at denied
      exact absurd denied (rule_undenied _ _)
    · exact ⟨_,poll_late fresh told accepted,nofun,nofun,by rw [Bucket.reserve_late told accepted]; rfl⟩

end Wait

namespace Session
variable {s one two : Session α} {action : Action α} {id : Nat} {unpolled : Bool}

-- A wait or a call may have been begun before; one that is begun takes a handle at which no permit is held.
inductive Attempt (s : Session α) : Action α → Prop where
  | onSpot : Attempt s .tryAcquire
  | asleep : Attempt s .acquireAwait
  | polled {id : Nat} (stands : s.standing id = some .unpolled) : Attempt s (.poll id)
  | begun {action : Action α} {id : Nat} {unpolled : Bool} (turn : s.turn action = .start id unpolled) (idle : s.Idle id) :
      Attempt s action

-- Refused on the spot, timed out at the gate, or past every representable time.
def TurnedAway (ran : Result α (Answer α)) : Prop :=
  ran.1 = .flag false ∨ Fate.unpolled.heard ran.2.2.issues ran.1 = .timedOut ∨
    Fate.unpolled.heard ran.2.2.issues ran.1 = .overflowed

structure Denial (s : Session α) (action : Action α) (ran : Result α (Answer α)) : Prop where
  now : ran.2.1.now = s.now
  regulator : ran.2.1.regulator = { s.regulator with bucket := s.regulator.bucket.refill s.now }
  untaken : ∃ terms, ran.2.2 = .ofOps [.reserve s.now terms] ∧ (s.regulator.bucket.reserve s.now terms).1.permits = 0
  rest : ran.2.1.issued = s.issued ∧ ran.2.1.tuning = s.tuning
  tunings : ran.2.1.services.map Service.tuning = s.services.map Service.tuning
  -- Only a call takes an instance, and takes it before it comes to the gate.
  staff : s.engaged action = none → ran.2.1.staff = s.staff
  own : ∀ id, action.handle = some id → s.Idle id ∧ ran.2.1.standing id = some .past
  others : ∀ id, action.handle ≠ some id → ran.2.1.lookup id = s.lookup id

theorem start_handle (turn : s.turn action = .start id unpolled) : action.handle = some id := by
  cases action with
  | acquire | acquireBefore | acquireCancellable =>
    cases turn
    rfl
  | call own number plan =>
    rcases s.call_cases own number plan with ⟨_,_,_,lost⟩ | ⟨_,_,_,_,_,started⟩
    · rw [(lost _).1] at turn
      cases turn
    · rw [(started _).1] at turn
      cases turn
      rfl
  | _ => cases turn

theorem pollHandle_denied {handle : Handle α} {wait : Wait} (here : s.lookup id = some handle)
    (gate : handle.wait? = some wait) (fresh : wait.booked = none) (away : TurnedAway (s.pollHandle id)) :
    ∃ answer, s.pollHandle id =
      (answer,(s.withBucket (s.regulator.bucket.refill s.now)).put id .finished,.ofOps [.reserve s.now wait.terms]) ∧
      (s.regulator.bucket.reserve s.now wait.terms).1.permits = 0 := by
  have heard : Fate.unpolled.heard (s.pollHandle id).2.2.issues (s.pollHandle id).1 = _ :=
    pollHandle_heard here gate (.inl rfl)
  unfold TurnedAway at away
  rw [heard] at away
  rcases away with flag | denied
  · refine absurd flag ?_
    unfold pollHandle
    rw [here]
    rcases Handle.wait_cases gate with rfl | ⟨call,rfl,_⟩ <;> nofun
  · obtain ⟨outcome,polled,early,done,untaken⟩ := Wait.poll_denied fresh denied
    have stopped := pollHandle_stopped here gate (by rwa [polled])
    rw [polled] at stopped
    dsimp only at stopped
    rw [if_neg done] at stopped
    exact ⟨_,stopped,untaken⟩

theorem onSpot_denial (away : TurnedAway (s.step .tryAcquire)) : s.Denial .tryAcquire (s.step .tryAcquire) := by
  obtain ⟨answer,_⟩ := s.tried
  have rest := s.step_tryAcquire_rest
  have untaken : (s.regulator.bucket.reserve s.now (.by s.now)).1.permits = 0 := by
    cases booking : (s.regulator.bucket.reserve s.now (.by s.now)).1 with
    | booked ready =>
      rw [booking] at answer
      simp [TurnedAway,answer,rest,tryAcquire,Fate.heard] at away
    | refused | overflow => rfl
  have left : s.tryAcquire.2 =
      (s.withBucket (s.regulator.bucket.refill s.now),.ofOps [.reserve s.now (.by s.now)]) := by
    unfold tryAcquire
    dsimp only
    rw [Bucket.reserve_unbooked untaken,untaken]
    rfl
  rw [left] at rest
  generalize s.step .tryAcquire = ran at rest
  obtain ⟨_,_,_⟩ := ran
  cases rest
  exact ⟨rfl,rfl,⟨_,rfl,untaken⟩,⟨rfl,rfl⟩,rfl,fun _ => rfl,nofun,fun _ _ => rfl⟩

theorem asleep_denial (away : TurnedAway (s.step .acquireAwait)) : s.Denial .acquireAwait (s.step .acquireAwait) := by
  have untaken : (s.regulator.bucket.reserve s.now .anyTime).1.permits = 0 := by
    cases told : (s.regulator.bucket.refill s.now).readyAt s.now with
    | none =>
      rw [Bucket.reserve_lost told]
      rfl
    | some ready =>
      have answer := (acquireAwait_wakes told).1
      refine absurd away ?_
      unfold TurnedAway
      rw [answer]
      generalize (s.step .acquireAwait).2.2.issues = issues
      cases issues <;> simp [Fate.heard]
  have left := Bucket.reserve_unbooked untaken
  have ran : s.acquireAwait =
      (.overflow,s.withBucket (s.regulator.bucket.refill s.now),.ofOps [.reserve s.now .anyTime]) := by
    unfold acquireAwait
    cases reserved : s.regulator.bucket.reserve s.now .anyTime with
    | mk booking bucket =>
      rw [reserved] at untaken left
      cases booking with
      | booked ready => cases untaken
      | refused | overflow =>
        dsimp only at left ⊢
        rw [left]
  unfold step
  dsimp only
  rw [ran]
  exact ⟨rfl,rfl,⟨_,rfl,untaken⟩,⟨rfl,rfl⟩,rfl,fun _ => rfl,nofun,fun _ _ => rfl⟩

theorem polled_denial (stands : s.standing id = some .unpolled) (away : TurnedAway (s.step (.poll id))) :
    s.Denial (.poll id) (s.step (.poll id)) := by
  obtain ⟨handle,here,unpolled⟩ := Option.map_eq_some_iff.mp stands
  obtain ⟨wait,gate,fresh⟩ := Handle.wait_unpolled unpolled
  obtain ⟨answer,polled,untaken⟩ := pollHandle_denied here gate fresh away
  have idle : s.Idle id := by
    unfold Idle
    rw [stands]
    nofun
  have stepped : s.step (.poll id) = _ := polled
  rw [stepped]
  refine ⟨rfl,rfl,⟨_,rfl,untaken⟩,⟨rfl,rfl⟩,rfl,fun _ => rfl,?_,?_⟩
  · rintro _ ⟨⟩
    exact ⟨idle,standing_put _ _ _⟩
  · intro other different
    exact lookup_put_other _ _ fun same => different (congrArg some same.symm)

theorem start_staff (turn : s.turn action = .start id unpolled) :
    (s.step action).2.1.services.map Service.tuning = s.services.map Service.tuning ∧
      (s.engaged action = none → (s.step action).2.1.staff = s.staff) := by
  cases action with
  | acquire own | acquireBefore own | acquireCancellable own =>
    have same := s.launch_staff own
    exact ⟨congrArg (fun staff => staff.1.map Service.tuning) (same _ _),fun _ => same _ _⟩
  | call own number plan left =>
    cases found : s.services[number]? with
    | none => simp [Session.turn,found] at turn
    | some service =>
      have called : (s.step (.call own number plan left)).2.1.staff = _ := call_staff found own plan left
      refine ⟨?_,fun free => ?_⟩
      · refine (congrArg (fun staff => staff.1.map Service.tuning) called).trans ?_
        exact furnished_tunings found _
      · simp [engaged,found] at free
  | _ => cases turn

theorem begun_denial (turn : s.turn action = .start id unpolled) (idle : s.Idle id) (away : TurnedAway (s.step action)) :
    s.Denial action (s.step action) := by
  obtain ⟨services,instances,handle,standing,_,ran,_⟩ := start_launched turn
  obtain ⟨tunings,staff⟩ := start_staff turn
  let base : Session α := { s with services, instances }
  have ground : base.Idle id := idle
  have own := start_handle turn
  cases unpolled with
  | true =>
    have begun : s.step action = (.unpolled,base.put id handle,.none) := ran.trans (launch_begun ground handle)
    rw [begun] at away
    rcases away with answer | heard | heard
    · cases answer
    · cases heard
    · cases heard
  | false =>
    obtain ⟨wait,gate,fresh⟩ := Handle.wait_unpolled standing
    have stepped : s.step action = (base.put id handle).pollHandle id := ran.trans (launch_at_once ground handle)
    rw [stepped] at away
    obtain ⟨answer,denied,untaken⟩ := pollHandle_denied (lookup_put base id handle) gate fresh away
    have others : ∀ other, action.handle ≠ some other → (s.step action).2.1.lookup other = s.lookup other :=
      fun _ => s.step_other action
    rw [stepped,denied] at tunings staff others ⊢
    refine ⟨rfl,rfl,⟨_,rfl,untaken⟩,⟨rfl,rfl⟩,tunings,staff,?_,others⟩
    intro other same
    rw [own] at same
    cases same
    exact ⟨idle,standing_put _ _ _⟩

theorem attempt_denial (attempt : s.Attempt action) (away : TurnedAway (s.step action)) :
    s.Denial action (s.step action) := by
  cases attempt with
  | onSpot => exact onSpot_denial away
  | asleep => exact asleep_denial away
  | polled stands => exact polled_denial stands away
  | begun turn idle => exact begun_denial turn idle away

-- An attempt that is only begun does not get to the gate.
structure View (α : Type) where
  answer : Answer α
  trace : Trace α
  now : Nanos
  standing : Option Standing
  regulator : Option Regulator

def view (s : Session α) (action : Action α) : View α :=
  let ran := s.step action
  ⟨ran.1,ran.2.2.unsigned,ran.2.1.now,action.handle.bind ran.2.1.standing,
    if ran.2.2.ops = [] then none else some ran.2.1.regulator⟩

def views (s : Session α) : List (Action α) → List (View α)
  | [] => []
  | action :: rest => s.view action :: (s.step action).2.1.views rest

theorem agree_view (agree : Agree action.handle (one.step action) (two.step action)) :
    two.view action = one.view action := by
  obtain ⟨answer,trace,standing,alike,level⟩ := agree
  have ops : (two.step action).2.2.ops = (one.step action).2.2.ops := by
    show (two.step action).2.2.unsigned.ops = (one.step action).2.2.unsigned.ops
    rw [trace]
  have own : action.handle.bind (two.step action).2.1.standing = action.handle.bind (one.step action).2.1.standing := by
    cases handle : action.handle with
    | none => rfl
    | some id => exact standing id handle
  unfold view
  dsimp only
  rw [answer,trace,alike.now,own,ops,level]

theorem onSpot_agree (alike : one.Alike two) : Agree none (one.step .tryAcquire) (two.step .tryAcquire) := by
  obtain ⟨settled,level⟩ := alike.withBucket (one.regulator.bucket.reserve one.now (.by one.now)).2
  have reserved : two.regulator.bucket.reserve two.now (.by two.now) =
      one.regulator.bucket.reserve one.now (.by one.now) := by
    rw [alike.now,alike.reserve]
  have first := one.step_tryAcquire_rest
  have second := two.step_tryAcquire_rest
  unfold tryAcquire at first second
  dsimp only at first second
  rw [reserved,alike.now] at second
  refine ⟨?_,?_,nofun,?_,?_⟩
  · rw [two.tried.1,one.tried.1,reserved]
  · rw [first,second]
  · rw [first,second]
    exact settled
  · rw [first,second]
    exact level

theorem asleep_agree (alike : one.Alike two) : Agree none (one.step .acquireAwait) (two.step .acquireAwait) := by
  unfold step
  dsimp only
  unfold acquireAwait
  rw [alike.now,alike.reserve]
  generalize one.regulator.bucket.reserve one.now .anyTime = reserved
  obtain ⟨booking,bucket⟩ := reserved
  obtain ⟨settled,level⟩ := alike.withBucket bucket
  cases booking with
  | refused | overflow => exact ⟨rfl,rfl,nofun,settled,level⟩
  | booked ready =>
    dsimp only
    by_cases past : ready ≤ one.now
    · rw [if_pos past,if_pos past]
      exact ⟨rfl,rfl,nofun,settled,level⟩
    · rw [if_neg past,if_neg past]
      exact ⟨rfl,rfl,nofun,settled.clocked level _,level⟩

theorem attempt_alike (alike : one.Alike two) (attempt : one.Attempt action) :
    two.view action = one.view action ∧ (one.step action).2.1.Alike (two.step action).2.1 := by
  cases attempt with
  | onSpot =>
    have agree := onSpot_agree alike
    exact ⟨agree_view agree,agree.alike⟩
  | asleep =>
    have agree := asleep_agree alike
    exact ⟨agree_view agree,agree.alike⟩
  | @polled id stands =>
    obtain ⟨handle,here,unpolled⟩ := Option.map_eq_some_iff.mp stands
    obtain ⟨wait,gate,fresh⟩ := Handle.wait_unpolled unpolled
    have found := alike.handles id
    rw [here,stands] at found
    rcases found with rel | ⟨past,_⟩
    · generalize there : two.lookup id = other at rel
      cases rel with
      | some kin =>
        have agree : Agree _ (one.step (.poll id)) (two.step (.poll id)) := poll_agree alike here there kin gate fresh
        exact ⟨agree_view agree,agree.alike⟩
    · cases past
  | @begun action id unpolled turn idle =>
    obtain ⟨first,second,handle,other,started⟩ := start_agree alike turn
    obtain ⟨ran,again,near,kin,standing,place⟩ := started
    have own := start_handle turn
    have ground : first.Idle id := by
      unfold Idle
      rw [place]
      exact idle
    have placed := near.put kin id
    cases unpolled with
    | true =>
      rw [launch_begun ground] at ran
      rw [launch_begun (near.idle ground)] at again
      unfold view
      rw [ran,again,own]
      refine ⟨?_,placed⟩
      dsimp only [Option.bind_some]
      rw [standing_put,standing_put,kin.standing,placed.now]
      rfl
    | false =>
      obtain ⟨wait,gate,fresh⟩ := Handle.wait_unpolled standing
      rw [launch_at_once ground] at ran
      rw [launch_at_once (near.idle ground)] at again
      have agree := poll_agree placed (lookup_put first id handle) (lookup_put second id other) kin gate fresh
      rw [← ran,← again,← own] at agree
      exact ⟨agree_view agree,agree.alike⟩

theorem denied_alike (alike : one.Alike two) (flows : one.regulator.bucket.rate.Positive)
    (denial : one.Denial action (one.step action)) : (one.step action).2.1.Alike two := by
  generalize one.step action = ran at denial
  obtain ⟨clock,regulator,_,_,tunings,_,own,others⟩ := denial
  refine ⟨alike.now.trans clock.symm,?_,?_,alike.tunings.trans tunings.symm,?_⟩
  · rw [regulator]
    exact alike.regulator
  · rw [regulator,clock,alike.bucket]
    exact (Bucket.refill_again flows _).symm
  · intro id
    by_cases mine : action.handle = some id
    · obtain ⟨idle,past⟩ := own id mine
      exact .inr ⟨past,alike.idle idle⟩
    · rw [others id mine]
      have same := alike.handles id
      unfold standing at same ⊢
      rwa [others id mine]

theorem step_flows (flows : s.regulator.bucket.rate.Positive) (action : Action α) :
    (s.step action).2.1.regulator.bucket.rate.Positive := by
  rw [(s.step_keeps action).bucket]
  exact Bucket.run_flows flows _

theorem views_omitting (alike : one.Alike two) (flows : one.regulator.bucket.rate.Positive) (positions : Nat → Bool)
    (attempts : List (Action α))
    (asked : ∀ i action, attempts[i]? = some action → (one.run (attempts.take i)).2.Attempt action)
    (denied : ∀ i action, positions i = true → attempts[i]? = some action →
      TurnedAway ((one.run (attempts.take i)).2.step action)) :
    two.views (omitting positions attempts) = omitting positions (one.views attempts) ∧
      (one.run attempts).2.Alike (two.run (omitting positions attempts)).2 := by
  induction attempts generalizing one two positions with
  | nil => exact ⟨rfl,alike⟩
  | cons action rest ih =>
    have first : one.Attempt action := asked 0 action rfl
    have later {other : Session α} (after : (one.step action).2.1.Alike other) :=
      ih after (step_flows flows action) (fun i => positions (i + 1)) (fun i next there => asked (i + 1) next there)
        fun i next chosen there => denied (i + 1) next chosen there
    have ran : (one.run (action :: rest)).2 = ((one.step action).2.1.run rest).2 := rfl
    rw [ran,views,omitting,omitting]
    cases chosen : positions 0 with
    | true =>
      have denial := attempt_denial first (denied 0 action chosen rfl)
      exact later (denied_alike alike flows denial)
    | false =>
      obtain ⟨same,after⟩ := attempt_alike alike first
      obtain ⟨others,left⟩ := later after
      refine ⟨?_,left⟩
      have seen : two.views (action :: omitting (fun i => positions (i + 1)) rest) =
        two.view action :: (two.step action).2.1.views (omitting (fun i => positions (i + 1)) rest) := rfl
      rw [if_neg Bool.false_ne_true,if_neg Bool.false_ne_true,seen,same,others]

-- Of attempts made one after the other any number that are turned away can be left out.
theorem denied_reserve_nothing (fresh : s.Fresh) (actions : List (Action α)) :
    let found := (s.run actions).2
    (∀ action, found.Attempt action → TurnedAway (found.step action) →
      found.Denial action (found.step action) ∧ (found.step action).2.1.regulator.bucket.refilled = found.now) ∧
    ∀ (positions : Nat → Bool) (attempts : List (Action α)),
      (∀ i action, attempts[i]? = some action → (found.run (attempts.take i)).2.Attempt action) →
      (∀ i action, positions i = true → attempts[i]? = some action →
        TurnedAway ((found.run (attempts.take i)).2.step action)) →
      found.views (omitting positions attempts) = omitting positions (found.views attempts) ∧
        (found.run attempts).2.Alike (found.run (omitting positions attempts)).2 := by
  intro found
  obtain ⟨_,solvent⟩ := run_solvent fresh actions
  refine ⟨?_,fun positions attempts => views_omitting (.refl found) solvent.flows positions attempts⟩
  intro action attempt away
  have denial := attempt_denial attempt away
  refine ⟨denial,?_⟩
  rw [denial.regulator]
  exact Nat.max_eq_right (run_past fresh actions)

-- The clock can hold the wait for one permit and not that for two.
theorem denied_reserve_nothing_three_omitted :
    let rate : Binary64 := 1 / 5000000000000000000
    let settings : Settings := ⟨1,50,Nanos.perSecond,1,100,0,some 1000⟩
    let opened : Session Unit := ⟨0,⟨rate,rate,rate,none,⟨rate,0,1,0⟩⟩,.of settings,[⟨.fresh 0,.of settings⟩],[],1,0⟩
    let found := (opened.run [.tryAcquire]).2
    let call : Action Unit := .call 0 0 ⟨none,0,.ok []⟩ false
    let attempts := [.tryAcquire,call,.acquire 1 false,.acquire 2 false]
    let positions := fun i => i != 2
    found.Denial call (found.step call) ∧ omitting positions attempts = [.acquire 1 false] ∧
    found.views [.acquire 1 false] = omitting positions (found.views attempts) ∧
    (found.run attempts).2.standing 1 = some (.pending 5000000000000000000000000000) := by
  intro rate settings opened found call attempts positions
  have made : Bucket.new rate 0 0 = .ok ⟨rate,0,1,0⟩ := Bucket.new_usable (by decide +kernel) (by decide +kernel)
  obtain ⟨denied,omitted⟩ := denied_reserve_nothing (s := opened) ⟨rfl,rate,0,made⟩ [.tryAcquire]
  have turn : found.turn call = .start 0 false := by decide +kernel
  have calling : found.Attempt call := .begun turn (idle_absent (by decide +kernel))
  have expired : TurnedAway (found.step call) := .inr (.inl (by decide +kernel))
  have asked : ∀ i action, attempts[i]? = some action → (found.run (attempts.take i)).2.Attempt action := by
    intro i action there
    match i with
    | 0 => cases there; exact .onSpot
    | 1 =>
      cases there
      have again : (found.run [.tryAcquire]).2.turn call = .start 0 false := by decide +kernel
      exact .begun again (idle_absent (by decide +kernel))
    | 2 => cases there; exact .begun rfl (idle_absent (by decide +kernel))
    | 3 => cases there; exact .begun rfl (idle_absent (by decide +kernel))
    | _ + 4 => cases there
  have away : ∀ i action, positions i = true → attempts[i]? = some action →
      TurnedAway ((found.run (attempts.take i)).2.step action) := by
    intro i action chosen there
    match i with
    | 0 =>
      cases there
      have refused : (found.regulator.bucket.reserve found.now (.by found.now)).1 = .refused := by decide +kernel
      exact .inl (by rw [List.take_zero,show (found.run []).2 = found from rfl,found.tried.1,refused])
    | 1 => cases there; exact .inr (.inl (by decide +kernel))
    | 2 => cases chosen
    | 3 => cases there; exact .inr (.inr (by decide +kernel))
    | _ + 4 => cases there
  exact ⟨(denied call calling expired).1,rfl,(omitted positions attempts asked away).1,by decide +kernel⟩

end Session
end LoadPacing
