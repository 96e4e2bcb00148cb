import LoadPacing.Proofs.Session.Books

-- What becomes of a wait, told from the answers to the polls of its handle and from the calls that were issued.
namespace LoadPacing

inductive Fate where
  | unpolled
  | pending
  | completed
  | timedOut
  | overflowed
  -- Cancelled, or dropped while it was pending.
  | givenUp
  deriving DecidableEq

namespace Fate

-- The permits that a wait has taken and given back by then.
def due : Fate → Nat × Nat
  | .unpolled | .timedOut | .overflowed => (0,0)
  | .pending | .completed => (1,0)
  | .givenUp => (1,1)

def completions : Fate → Nat
  | .completed => 1
  | .unpolled | .pending | .timedOut | .overflowed | .givenUp => 0

-- A call that was issued has passed the gate, whatever came of it.
def heard (fate : Fate) (issues : List (Issue α)) (answer : Answer α) : Fate :=
  match fate with
  | .unpolled | .pending =>
    if issues.isEmpty then
      match answer with
      | .progress .pending => .pending
      | .progress .ready => .completed
      | .progress (.failed (.gate .timedOut)) => .timedOut
      | .progress (.failed (.gate .cancelled)) => .givenUp
      | .progress .overflow => .overflowed
      | _ => fate
    else .completed
  | .completed | .timedOut | .overflowed | .givenUp => fate

def dropped : Fate → Fate
  | .pending => .givenUp
  | fate => fate

def Settled (fate : Fate) : Prop := fate ≠ .unpolled ∧ fate ≠ .pending

instance (fate : Fate) : Decidable fate.Settled := inferInstanceAs (Decidable (_ ∧ _))

inductive Stands : Fate → Standing → Prop where
  | unpolled : Stands .unpolled .unpolled
  | pending (ready : Nanos) : Stands .pending (.pending ready)
  | past {fate : Fate} (settled : fate.Settled) : Stands fate .past

def ofOutcome : Wait.Outcome → Fate
  | .pending => .pending
  | .ready => .completed
  | .failed .timedOut => .timedOut
  | .failed .cancelled => .givenUp
  | .overflow => .overflowed

theorem ofOutcome_settled {outcome : Wait.Outcome} (done : outcome ≠ .pending) : (ofOutcome outcome).Settled := by
  cases outcome with
  | pending => exact absurd rfl done
  | ready | overflow => decide
  | failed failure => cases failure <;> decide

structure Becomes (fate next : Fate) (b : Bucket) (ops : List Bucket.Op) (passes : Nat) : Prop where
  taken : next.due.1 = fate.due.1 + b.taken ops
  returned : next.due.2 = fate.due.2 + Bucket.givenBack ops
  completed : next.completions = fate.completions + passes

variable {fate next last : Fate} {b : Bucket} {x y : List Bucket.Op}

theorem Becomes.append (first : fate.Becomes next b x m) (second : next.Becomes last (b.run x) y n) :
    fate.Becomes last b (x ++ y) (m + n) := by
  refine ⟨?_,?_,?_⟩
  · rw [second.taken,first.taken,Bucket.taken_append,Nat.add_assoc]
  · rw [second.returned,first.returned,Bucket.givenBack_append,Nat.add_assoc]
  · rw [second.completed,first.completed,Nat.add_assoc]

theorem becomes_same (none : b.taken x = 0) (kept : Bucket.givenBack x = 0) : fate.Becomes fate b x 0 :=
  ⟨by rw [none]; rfl,by rw [kept]; rfl,rfl⟩

theorem heard_settled (settled : fate.Settled) (issues : List (Issue α)) (answer : Answer α) :
    fate.heard issues answer = fate := by
  obtain ⟨polled,through⟩ := settled
  cases fate with
  | unpolled => exact absurd rfl polled
  | pending => exact absurd rfl through
  | completed | timedOut | overflowed | givenUp => rfl

theorem dropped_becomes (stands : fate.Stands standing) :
    fate.Becomes fate.dropped b standing.ops 0 := by
  cases stands with
  | unpolled => exact ⟨rfl,rfl,rfl⟩
  | pending ready => exact ⟨rfl,rfl,rfl⟩
  | past settled =>
    have same : fate.dropped = fate := by
      cases fate with
      | pending => exact absurd rfl settled.2
      | unpolled | completed | timedOut | overflowed | givenUp => rfl
    rw [same]
    exact becomes_same rfl rfl

theorem heard_outcome (waits : fate = .unpolled ∨ fate = .pending) (outcome : Wait.Outcome) :
    fate.heard ([] : List (Issue α)) (.progress (.ofOutcome outcome)) = .ofOutcome outcome := by
  rcases waits with rfl | rfl
  all_goals
    cases outcome with
    | failed failure => cases failure <;> rfl
    | ready | pending | overflow => rfl

theorem heard_issue (waits : fate = .unpolled ∨ fate = .pending) (issue : Issue α) (rest : List (Issue α))
    (answer : Answer α) : fate.heard (issue :: rest) answer = .completed := by
  rcases waits with rfl | rfl <;> rfl

end Fate

namespace Wait
variable {w : Wait} {now : Nanos} {b : Bucket} {polled : Polled} {fate : Fate}

theorem standing_waits (w : Wait) (stands : fate.Stands w.standing) : fate = .unpolled ∨ fate = .pending := by
  cases booked : w.booked with
  | none =>
    rw [standing_fresh booked] at stands
    cases stands
    exact .inl rfl
  | some ready =>
    rw [standing_held booked] at stands
    cases stands
    exact .inr rfl

theorem Polling.pending (polling : Polling w now b polled) (outcome : polled.outcome = .pending) :
    ∃ ready, polled.wait.standing = .pending ready := by
  cases polling with
  | overflow | refused | atOnce | cancelledAtOnce | woken | cancelled => cases outcome
  | begun => exact ⟨_,rfl⟩
  | asleep held => exact ⟨_,standing_held held⟩

theorem Polling.stands (polling : Polling w now b polled) :
    (Fate.ofOutcome polled.outcome).Stands polled.standing := by
  unfold Polled.standing
  split
  · rename_i outcome
    obtain ⟨ready,pending⟩ := polling.pending outcome
    rw [outcome,pending]
    exact .pending ready
  · rename_i done
    exact .past (Fate.ofOutcome_settled done)

theorem Polling.becomes (polling : Polling w now b polled) (stands : fate.Stands w.standing) :
    fate.Becomes (.ofOutcome polled.outcome) b polled.ops polled.passed := by
  cases polling with
  | overflow fresh booking | refused fresh booking | atOnce fresh booking | begun fresh booking =>
    rw [standing_fresh fresh] at stands
    cases stands
    refine ⟨?_,rfl,rfl⟩
    simp [Bucket.taken,Bucket.permits,booking,Booking.permits,Fate.ofOutcome,Fate.due]
  | cancelledAtOnce fresh booking =>
    rw [standing_fresh fresh] at stands
    cases stands
    refine ⟨?_,rfl,rfl⟩
    simp [Bucket.taken,Bucket.permits,booking,Booking.permits,Fate.ofOutcome,Fate.due]
  | woken held | cancelled held | asleep held =>
    rw [standing_held held] at stands
    cases stands
    exact ⟨rfl,rfl,rfl⟩

end Wait

namespace Session
variable {s middle after : Session α} {id : Nat} {fate : Fate}

def standing (s : Session α) (id : Nat) : Option Standing := (s.lookup id).map Handle.standing

theorem standing_put (s : Session α) (id : Nat) (handle : Handle α) :
    (s.put id handle).standing id = some handle.standing :=
  congrArg (Option.map Handle.standing) Registry.find_put

theorem standing_put_other (s : Session α) (handle : Handle α) {other : Nat} (different : other ≠ id) :
    (s.put id handle).standing other = s.standing other :=
  congrArg (Option.map Handle.standing) (Registry.find_put_other different)

structure Apart (s : Session α) (trace : Trace α) (after : Session α) : Prop where
  standing : ∀ id, after.standing id = s.standing id
  taken : s.regulator.bucket.taken trace.ops = trace.passed
  returned : Bucket.givenBack trace.ops = 0
  issues : trace.issues = []

theorem aside_apart (move : Aside s trace after) : Apart s trace after := by
  cases move with
  | take terms => exact ⟨fun _ => rfl,rfl,rfl,rfl⟩
  | @proceed _ id handle next found same =>
    refine ⟨?_,rfl,rfl,rfl⟩
    intro other
    by_cases equal : other = id
    · rw [equal,standing_put,same,standing,found]
      rfl
    · exact standing_put_other s next equal
  | @round outcome ran =>
    refine ⟨fun _ => rfl,?_,?_,rfl⟩
    all_goals
      show _ = 0
      unfold round
      cases outcome.1 <;> rfl
  | report | furnish => exact ⟨fun _ => rfl,rfl,rfl,rfl⟩

theorem asides_apart (moves : Moves Aside s trace after) : Apart s trace after := by
  induction moves with
  | nil => exact ⟨fun _ => rfl,rfl,rfl,rfl⟩
  | cons move _ ih =>
    have first := aside_apart move
    have bucket := move.effect.bucket_eq
    refine ⟨?_,?_,?_,?_⟩
    · intro id
      rw [ih.standing,first.standing]
    · rw [Trace.append_ops,Bucket.taken_append,first.taken,← bucket,ih.taken]
      rfl
    · rw [Trace.append_ops,Bucket.givenBack_append,first.returned,ih.returned]
    · rw [Trace.append_issues,first.issues,ih.issues]
      rfl

theorem release_issues (s : Session α) (id : Nat) : (s.release id).2.2.issues = [] := by
  unfold release
  split <;> rfl

theorem furnished_release (s : Session α) (services : List Service) (instances id : Nat) :
    ({ s with services, instances }.release id).2.2 = (s.release id).2.2 := by
  unfold release
  have same : { s with services, instances }.lookup id = s.lookup id := rfl
  rw [same]
  cases s.lookup id <;> rfl

structure Tells (fate : Fate) (s : Session α) (id : Nat) (polled : Result α (Answer α)) : Prop where
  becomes : fate.Becomes (fate.heard polled.2.2.issues polled.1) s.regulator.bucket polled.2.2.ops
    polled.2.2.passed
  stands : ∃ standing, polled.2.1.standing id = some standing ∧
    (fate.heard polled.2.2.issues polled.1).Stands standing
  others : ∀ other, other ≠ id → polled.2.1.standing other = s.standing other

theorem gated_tells {wait : Wait} {answer : Answer α} (stands : fate.Stands wait.standing)
    (gated : Gated s id wait x middle) (moves : Moves Aside middle y after) (quiet : y.passed = 0)
    (heard : fate.heard (x ++ y).issues answer = .ofOutcome (wait.poll s.now s.regulator.bucket).outcome) :
    Tells fate s id (answer,after,x ++ y) := by
  have polling := wait.poll_polling s.now s.regulator.bucket
  have becomes := polling.becomes stands
  have stood := polling.stands
  generalize Fate.ofOutcome (wait.poll s.now s.regulator.bucket).outcome = next at becomes stood heard
  have bucket := gated.effect.bucket_eq
  have apart := asides_apart moves
  obtain ⟨⟨handle,issued,same,eq⟩,ops,passed,_⟩ := gated
  have placed : ∀ other, middle.standing other = (s.put id handle).standing other := by
    intro other
    rw [eq]
    rfl
  refine ⟨?_,⟨handle.standing,?_,?_⟩,?_⟩
  · rw [← ops,← passed] at becomes
    have rest : next.Becomes next (s.regulator.bucket.run x.ops) y.ops y.passed := by
      rw [quiet]
      refine Fate.becomes_same ?_ apart.returned
      rw [← bucket,apart.taken,quiet]
    rw [heard]
    exact becomes.append rest
  · rw [apart.standing,placed,standing_put]
  · rw [heard,same]
    exact stood
  · intro other different
    rw [apart.standing,placed,standing_put_other s handle different]

theorem gate_tells {wait : Wait} (stands : fate.Stands wait.standing) (gated : Gated s id wait trace after)
    (unsent : trace.issues = []) :
    Tells fate s id (.progress (.ofOutcome (wait.poll s.now s.regulator.bucket).outcome),after,trace) := by
  have heard := Fate.heard_outcome (α := α) (wait.standing_waits stands)
    (wait.poll s.now s.regulator.bucket).outcome
  rw [← unsent,← trace.append_none] at heard
  have tells := gated_tells stands gated .nil rfl heard
  rwa [Trace.append_none] at tells

theorem past_tells {answer : Answer α} (settled : fate.Settled) (past : s.standing id = some .past)
    (moves : Moves Aside s trace after) (quiet : trace.passed = 0) : Tells fate s id (answer,after,trace) := by
  have apart := asides_apart moves
  have same := fate.heard_settled settled trace.issues answer
  refine ⟨?_,⟨.past,?_,?_⟩,?_⟩
  · rw [same,quiet]
    exact Fate.becomes_same (apart.taken.trans quiet) apart.returned
  · rw [apart.standing,past]
  · rw [same]
    exact .past settled
  · intro other _
    exact apart.standing other

theorem proceed_quiet (s : Session α) (id : Nat) (call : Call α) (pauses : Nat) :
    (s.proceed id call pauses).2.2.passed = 0 ∧ (s.proceed id call pauses).2.2.issues = [] := by
  cases pauses with
  | succ pauses => exact ⟨rfl,rfl⟩
  | zero =>
    unfold proceed
    cases call.plan.outcome with
    | ok script => exact ⟨rfl,rfl⟩
    | error failure => dsimp only; split <;> exact ⟨rfl,rfl⟩

theorem pollGate_answer (s : Session α) (id : Nat) (wait : Wait) (waiting : Wait → Handle α)
    (through : Handle α) (issues : List (Issue α)) :
    (s.pollGate id wait waiting through issues).1 = (wait.poll s.now s.regulator.bucket).outcome ∧
    (s.pollGate id wait waiting through issues).2.2.issues =
      if (wait.poll s.now s.regulator.bucket).outcome = .ready then issues else [] := by
  unfold pollGate
  dsimp only
  split <;> (rename_i eq; simp [eq,Trace.ofOps,Trace.ofPass])

theorem pollWait_tells {wait : Wait} (stands : fate.Stands wait.standing) :
    Tells fate s id (.progress (s.pollWait id wait).1,(s.pollWait id wait).2) := by
  obtain ⟨answer,issues⟩ := s.pollGate_answer id wait .waiting .finished []
  have gated : Gated s id wait (s.pollWait id wait).2.2 (s.pollWait id wait).2.1 :=
    pollGate_gated s id wait [] (fun _ => rfl) rfl
  have tells := gate_tells stands gated (issues.trans (ite_self _))
  rwa [← answer] at tells

theorem pollCall_tells {call : Call α} (found : s.lookup id = some (.calling call))
    (stands : fate.Stands (Handle.calling call).standing) :
    Tells fate s id (.progress (s.pollCall id call).1,(s.pollCall id call).2) := by
  unfold pollCall
  split
  · rename_i pauses stage
    have past := Call.standing_stage stage
    have here : s.standing id = some .past := by
      rw [standing,found]
      exact congrArg some past
    rw [past] at stands
    cases stands
    rename_i settled
    exact past_tells settled here (s.proceed_moves call pauses found past) (s.proceed_quiet id call pauses).1
  · rename_i wait stage
    rw [Call.standing_atGate stage] at stands
    obtain ⟨answer,issues⟩ := s.pollGate_answer id wait
      (fun wait => .calling { call with stage := .atGate wait })
      (.calling { call with stage := .issued call.plan.pauses }) [call.issue]
    have gated : Gated s id wait (s.pollCallGate id call wait).2.2 (s.pollCallGate id call wait).2.1 :=
      pollGate_gated s id wait [call.issue] (fun _ => rfl) rfl
    have waits := wait.standing_waits stands
    dsimp only
    split
    · rename_i ready
      have issued := s.pollCallGate_issued id call wait ready
      have proceeds := proceed_moves (s.pollCallGate id call wait).2.1 call call.plan.pauses issued rfl
      have quiet := proceed_quiet (s.pollCallGate id call wait).2.1 id call call.plan.pauses
      refine gated_tells stands gated proceeds quiet.1 ?_
      have outcome := answer.symm.trans ready
      have sent : (s.pollCallGate id call wait).2.2.issues = [call.issue] := by
        rw [outcome] at issues
        exact issues
      rw [Trace.append_issues,sent,outcome]
      exact Fate.heard_issue waits _ _ _
    · rename_i waiting
      have unsent : (s.pollCallGate id call wait).2.2.issues = [] := by
        rw [← answer] at issues
        exact issues.trans (if_neg waiting)
      have tells := gate_tells stands gated unsent
      rwa [← answer] at tells

theorem pollHandle_tells {handle : Handle α} (found : s.lookup id = some handle)
    (stands : fate.Stands handle.standing) : Tells fate s id (s.pollHandle id) := by
  have here : s.standing id = some handle.standing := by rw [standing,found]; rfl
  unfold pollHandle
  rw [found]
  cases handle with
  | waiting wait => exact pollWait_tells stands
  | calling call => exact pollCall_tells found stands
  | relaying | bare | finished =>
    cases stands
    rename_i settled
    exact past_tells settled here .nil rfl

end Session

end LoadPacing
