import LoadPacing.Proofs.Bucket.Waiting
import LoadPacing.Proofs.Session.Fates
import LoadPacing.Proofs.Session.Frame

-- What comes of a wait at its first poll, when it takes a handle that nobody waits at.
namespace LoadPacing

namespace Wait
variable {w : Wait} {b : Bucket} {now ready : Nanos}

section FirstPoll
variable (fresh : w.booked = none)
include fresh

theorem poll_lost (lost : (b.refill now).readyAt now = none) :
    w.poll now b = ⟨.overflow,w,b.refill now,[.reserve now w.terms]⟩ := by
  unfold poll
  rw [fresh]
  dsimp only
  rw [Bucket.reserve_lost lost]

variable (told : (b.refill now).readyAt now = some ready)
include told

theorem poll_late (late : ¬ w.terms.Accept ready) :
    w.poll now b = ⟨.failed .timedOut,w,b.refill now,[.reserve now w.terms]⟩ := by
  unfold poll
  rw [fresh]
  dsimp only
  rw [Bucket.reserve_late told late]

theorem poll_due (accepted : w.terms.Accept ready) (due : ready ≤ now ∨ Nanos.Rung ready now) :
    w.poll now b = ⟨.ready,w,(b.refill now).take,[.reserve now w.terms]⟩ := by
  unfold poll
  rw [fresh]
  dsimp only
  rw [Bucket.reserve_ready told accepted]
  exact if_pos due

theorem poll_early (accepted : w.terms.Accept ready) (early : ¬ (ready ≤ now ∨ Nanos.Rung ready now)) :
    w.poll now b = w.hold ready (b.refill now).take [.reserve now w.terms] := by
  unfold poll
  rw [fresh]
  dsimp only
  rw [Bucket.reserve_ready told accepted]
  exact if_neg early

end FirstPoll
end Wait

namespace Session
variable {s : Session α} {id : Nat} {wait : Wait}

def Idle (s : Session α) (id : Nat) : Prop := ∀ due, s.standing id ≠ some (.pending due)

theorem idle_absent (absent : s.standing id = none) : s.Idle id := by
  intro due
  rw [absent]
  nofun

theorem idle_past (past : s.standing id = some .past) : s.Idle id := by
  intro due
  rw [past]
  nofun

theorem release_idle (idle : s.Idle id) :
    (s.release id).2.1.now = s.now ∧ (s.release id).2.1.regulator = s.regulator ∧ (s.release id).2.2.ops = [] := by
  unfold release
  cases here : s.lookup id with
  | none => exact ⟨rfl,rfl,rfl⟩
  | some handle =>
    have none : abandon handle = [] := by
      rw [abandon_standing]
      cases stands : handle.standing with
      | unpolled | past => rfl
      | pending due =>
        refine absurd ?_ (idle due)
        rw [standing,here,← stands]
        rfl
    dsimp only
    rw [none]
    exact ⟨rfl,rfl,rfl⟩

structure Launched (s : Session α) (id : Nat) (polled : Wait.Polled) (launched : Result α (Answer α)) : Prop where
  answer : launched.1 = .progress (.ofOutcome polled.outcome)
  now : launched.2.1.now = s.now
  bucket : launched.2.1.regulator.bucket = polled.bucket
  ops : launched.2.2.ops = polled.ops
  standing : launched.2.1.standing id = some polled.standing
  others : ∀ other, other ≠ id → launched.2.1.standing other = s.standing other

theorem pollHandle_waiting (here : s.lookup id = some (.waiting wait)) :
    Launched s id (wait.poll s.now s.regulator.bucket) (s.pollHandle id) := by
  have answer := (s.pollGate_answer id wait .waiting .finished []).1
  have gated : Gated s id wait (s.pollWait id wait).2.2 (s.pollWait id wait).2.1 :=
    pollGate_gated s id wait [] (fun _ => rfl) rfl
  obtain ⟨⟨handle,issued,stands,after⟩,ops,_⟩ := gated
  unfold pollHandle
  rw [here]
  refine ⟨?_,?_,?_,ops,?_,?_⟩
  · exact congrArg (fun outcome => Answer.progress (.ofOutcome outcome)) answer
  · show (s.pollWait id wait).2.1.now = s.now
    rw [after]
    rfl
  · show (s.pollWait id wait).2.1.regulator.bucket = _
    rw [after]
    rfl
  · show (s.pollWait id wait).2.1.standing id = _
    rw [after,← stands]
    exact standing_put _ id handle
  · intro other different
    show (s.pollWait id wait).2.1.standing other = _
    rw [after]
    exact standing_put_other _ handle different

theorem launch_idle (idle : s.Idle id) (wait : Wait) :
    Launched s id (wait.poll s.now s.regulator.bucket) (s.launch id (.waiting wait) false) := by
  obtain ⟨clock,regulator,quiet⟩ := release_idle idle
  have bucket := congrArg Regulator.bucket regulator
  have polled := pollHandle_waiting (lookup_put (s.release id).2.1 id (.waiting wait))
  have pollNow : ((s.release id).2.1.put id (.waiting wait)).now = s.now := clock
  have pollBucket : ((s.release id).2.1.put id (.waiting wait)).regulator.bucket = s.regulator.bucket := bucket
  rw [pollNow,pollBucket] at polled
  obtain ⟨answer,now,left,ops,standing,others⟩ := polled
  rw [pollNow] at now
  refine ⟨answer,now,left,?_,standing,?_⟩
  · show (s.release id).2.2.ops ++ _ = _
    rw [quiet]
    exact ops
  · intro other different
    refine (others other different).trans ?_
    rw [standing_put_other _ _ different]
    exact congrArg (Option.map Handle.standing) (s.release_other different)

structure Dropped (s : Session α) (id : Nat) (due : Nanos) (dropped : Result α (Answer α)) : Prop where
  now : dropped.2.1.now = s.now
  bucket : dropped.2.1.regulator.bucket = s.regulator.bucket.giveBack
  ops : dropped.2.2.ops = [.giveBack due]
  standing : dropped.2.1.standing id = none
  others : ∀ other, other ≠ id → dropped.2.1.standing other = s.standing other

theorem drop_pending {due : Nanos} (pending : s.standing id = some (.pending due)) :
    Dropped s id due (s.step (.drop id)) := by
  obtain ⟨handle,here,stands⟩ := Option.map_eq_some_iff.mp pending
  have released : s.release id = (true,(s.forget id).operate [.giveBack due],.ofOps [.giveBack due]) := by
    unfold release
    rw [here]
    dsimp only
    rw [abandon_standing,stands]
    rfl
  unfold step
  dsimp only
  rw [released]
  refine ⟨rfl,rfl,rfl,?_,?_⟩
  · exact congrArg (Option.map Handle.standing) Registry.find_without
  · intro other different
    exact congrArg (Option.map Handle.standing) (Registry.find_without_other different)

end Session
end LoadPacing
