import LoadPacing.Proofs.Session.CallPolls
import LoadPacing.Proofs.Session.Ways

-- Nothing else in the session moves the instant of a pending wait, or ends it.
namespace LoadPacing

namespace Nanos
variable {ready now : Nanos} {millis : Nat}

theorem rung_ticks (ready now : Nanos) :
    Rung ready now ↔ ready.ceilMilli ≤ now.floorMilli ∨ lastTick ≤ now.floorMilli := by
  unfold Rung tickOfWait tickOfClock
  omega

theorem rung_past (rung : Rung ready now) (ticks : now.floorMilli < lastTick) : ready ≤ now :=
  Nat.not_lt.mp fun late => not_rung_early late ticks rung

theorem due_ticks (ready now : Nanos) :
    ready ≤ now ∨ Rung ready now ↔ ready ≤ now ∨ lastTick ≤ now.floorMilli := by
  constructor
  · rintro (past | rung)
    · exact .inl past
    · by_cases ticks : now.floorMilli < lastTick
      · exact .inl (rung_past rung ticks)
      · exact .inr (Nat.not_lt.mp ticks)
  · exact Or.imp_right rung_last

theorem rung_after_milli (passed : ready + perMilli ≤ now) : Rung ready now := by
  have milli : 0 < perMilli := by decide
  have within : ready + (perMilli - 1) ≤ now := by lia
  exact (rung_ticks ready now).mpr (.inl (Nat.div_le_div_right within))

theorem rung_in (ready now : Nanos) (millis : Nat) :
    Rung ready (now + millis * perMilli) ↔ tickOfWait ready ≤ tickOfClock now + millis := by
  have milli : 0 < perMilli := by decide
  have clock : (now + millis * perMilli).floorMilli = now.floorMilli + millis := Nat.add_mul_div_right _ _ milli
  have most : tickOfWait ready ≤ lastTick := Nat.min_le_right _ _
  unfold Rung tickOfClock
  rw [clock]
  omega

def DueIn (ready now : Nanos) (millis : Nat) : Prop :=
  millis = 0 ∧ ready ≤ now ∨ Rung ready (now + millis * perMilli)

theorem wake_first (late : ¬ ready ≤ now) :
    ∃ millis, wake ready now = now + millis * perMilli ∧ DueIn ready now millis ∧
      ∀ sooner < millis, ¬ DueIn ready now sooner := by
  refine ⟨tickOfWait ready - tickOfClock now,rfl,.inr ((rung_in _ _ _).mpr (by omega)),?_⟩
  rintro sooner before (⟨_,past⟩ | rung)
  · exact late past
  · have ticks := (rung_in _ _ _).mp rung
    exact absurd ticks (Nat.not_le.mpr (Nat.add_lt_of_lt_sub' before))

end Nanos

-- Whether a wait is over at a poll, and if not, whether it has been given up.
structure Fate.Ruled (fate : Fate) (come given : Prop) : Prop where
  completed : fate = .completed ↔ come
  givenUp : fate = .givenUp ↔ ¬ come ∧ given
  pending : fate = .pending ↔ ¬ come ∧ ¬ given

theorem Fate.Ruled.of_iff {fate : Fate} (ruled : fate.Ruled come given) (one : come ↔ past) (two : given ↔ signal) :
    fate.Ruled past signal := by
  rwa [propext one,propext two] at ruled

namespace Wait
variable {w : Wait} {b : Bucket} {now ready : Nanos}

def rule (come given : Prop) [Decidable come] [Decidable given] : Outcome :=
  if come then .ready else if given then .failed .cancelled else .pending

theorem rule_ruled (come given : Prop) [Decidable come] [Decidable given] :
    (Fate.ofOutcome (rule come given)).Ruled come given := by
  unfold rule
  by_cases past : come
  · rw [if_pos past]
    exact ⟨by simp [Fate.ofOutcome,past],by simp [Fate.ofOutcome,past],by simp [Fate.ofOutcome,past]⟩
  · by_cases signal : given
    · rw [if_neg past,if_pos signal]
      exact ⟨by simp [Fate.ofOutcome,past],by simp [Fate.ofOutcome,past,signal],by simp [Fate.ofOutcome,signal]⟩
    · rw [if_neg past,if_neg signal]
      exact ⟨by simp [Fate.ofOutcome,past],by simp [Fate.ofOutcome,signal],by simp [Fate.ofOutcome,past,signal]⟩

theorem hold_outcome (w : Wait) (ready : Nanos) (b : Bucket) (ops : List Bucket.Op) :
    (w.hold ready b ops).outcome = if w.cancel = .given then .failed .cancelled else .pending := by
  unfold hold
  split <;> rfl

theorem hold_wait (going : (w.hold ready b ops).outcome = .pending) :
    (w.hold ready b ops).wait = { w with booked := some ready } := by
  unfold hold at going ⊢
  split at going
  · cases going
  · rename_i silent
    rw [if_neg silent]

theorem poll_first (fresh : w.booked = none) (told : (b.refill now).readyAt now = some ready)
    (accepted : w.terms.Accept ready) :
    (w.poll now b).outcome = rule (ready ≤ now ∨ Nanos.Rung ready now) (w.cancel = .given) ∧
      ((w.poll now b).outcome = .pending → (w.poll now b).wait = { w with booked := some ready }) := by
  unfold rule
  by_cases due : ready ≤ now ∨ Nanos.Rung ready now
  · rw [poll_due fresh told accepted due,if_pos due]
    exact ⟨rfl,nofun⟩
  · rw [poll_early fresh told accepted due,if_neg due]
    exact ⟨hold_outcome _ _ _ _,hold_wait⟩

theorem poll_again (held : w.booked = some ready) (now : Nanos) (b : Bucket) :
    (w.poll now b).outcome = rule (Nanos.Rung ready now) (w.cancel = .given) ∧
      ((w.poll now b).outcome = .pending → (w.poll now b).wait = w) := by
  unfold poll rule
  rw [held]
  dsimp only
  by_cases due : Nanos.Rung ready now
  · rw [if_pos due,if_pos due]
    exact ⟨rfl,nofun⟩
  · rw [if_neg due,if_neg due]
    refine ⟨hold_outcome _ _ _ _,fun going => (hold_wait going).trans ?_⟩
    rw [← held]

end Wait

namespace Handle

def wait? : Handle α → Option Wait
  | .waiting wait => some wait
  | .calling { stage := .atGate wait, .. } => some wait
  | .calling { stage := .issued _, .. } | .relaying _ | .bare _ | .finished => none

def withWait (handle : Handle α) (wait : Wait) : Handle α :=
  match handle with
  | .waiting _ => .waiting wait
  | .calling call => .calling { call with stage := .atGate wait }
  | other => other

-- The wait has a cancel signal that was not given yet.
def cancellable : Handle α → Bool
  | .waiting wait => wait.cancel = .silent
  | _ => false

def signal : Handle α → Handle α
  | .waiting wait => if wait.cancel = .silent then .waiting { wait with cancel := .given } else .waiting wait
  | handle => handle

variable {handle : Handle α} {wait : Wait}

theorem wait_cases (gate : handle.wait? = some wait) :
    handle = .waiting wait ∨ ∃ call, handle = .calling call ∧ call.stage = .atGate wait := by
  cases handle with
  | waiting own => exact .inl (congrArg Handle.waiting (Option.some.inj gate))
  | calling call =>
    obtain ⟨backend,tuning,plan,stage⟩ := call
    cases stage with
    | atGate own =>
      cases gate
      exact .inr ⟨_,rfl,rfl⟩
    | issued pauses => cases gate
  | relaying | bare | finished => cases gate

theorem wait_standing (gate : handle.wait? = some wait) : handle.standing = wait.standing := by
  rcases wait_cases gate with rfl | ⟨call,rfl,stage⟩
  · rfl
  · exact Call.standing_atGate stage

theorem withWait_same (gate : handle.wait? = some wait) : handle.withWait wait = handle := by
  rcases wait_cases gate with rfl | ⟨call,rfl,stage⟩
  · rfl
  · show Handle.calling { call with stage := .atGate wait } = _
    rw [← stage]

theorem wait_withWait (gate : handle.wait? = some wait) (next : Wait) : (handle.withWait next).wait? = some next := by
  rcases wait_cases gate with rfl | ⟨call,rfl,_⟩ <;> rfl

theorem cancellable_booked (gate : handle.wait? = some wait) (booked : Option Nanos) :
    (handle.withWait { wait with booked }).cancellable = handle.cancellable := by
  rcases wait_cases gate with rfl | ⟨call,rfl,_⟩ <;> rfl

theorem wait_signal (gate : handle.wait? = some wait) :
    handle.signal.wait? = some (if handle.cancellable then { wait with cancel := .given } else wait) := by
  rcases wait_cases gate with rfl | ⟨call,rfl,_⟩
  · unfold signal cancellable
    by_cases silent : wait.cancel = .silent
    · simp [silent,wait?]
    · simp [silent,wait?]
  · exact gate

theorem signal_signal (handle : Handle α) : handle.signal.signal = handle.signal := by
  cases handle with
  | waiting wait =>
    unfold signal
    dsimp only
    by_cases silent : wait.cancel = .silent
    · rw [if_pos silent]
      exact if_neg nofun
    · rw [if_neg silent]
      exact if_neg silent
  | calling | relaying | bare | finished => rfl

end Handle

namespace Session
variable {s : Session α} {id : Nat} {handle : Handle α} {wait : Wait} {action : Action α} {ready : Nanos} {fate : Fate}

theorem pollHandle_stopped (here : s.lookup id = some handle) (gate : handle.wait? = some wait)
    (stopped : (wait.poll s.now s.regulator.bucket).outcome ≠ .ready) :
    let polled := wait.poll s.now s.regulator.bucket
    s.pollHandle id =
      (.progress (.ofOutcome polled.outcome),
        (s.withBucket polled.bucket).put id (if polled.outcome = .pending then handle.withWait polled.wait else .finished),
        .ofOps polled.ops) := by
  unfold pollHandle
  rw [here]
  rcases Handle.wait_cases gate with rfl | ⟨call,rfl,stage⟩
  · dsimp only [pollWait]
    rw [s.pollGate_stopped stopped id .waiting .finished []]
    rfl
  · have held : call.reached s = none := by
      unfold Call.reached
      rw [stage]
      exact if_neg stopped
    obtain ⟨polled,gated,_,ran⟩ := pollCall_stopped id held
    unfold Call.gate at gated
    rw [stage] at gated
    cases gated
    dsimp only
    rw [ran]
    rfl

theorem pollHandle_heard (here : s.lookup id = some handle) (gate : handle.wait? = some wait)
    (waits : fate = .unpolled ∨ fate = .pending) :
    fate.heard (s.pollHandle id).2.2.issues (s.pollHandle id).1 =
      .ofOutcome (wait.poll s.now s.regulator.bucket).outcome := by
  by_cases through : (wait.poll s.now s.regulator.bucket).outcome = .ready
  · rw [through]
    unfold pollHandle
    rw [here]
    rcases Handle.wait_cases gate with rfl | ⟨call,rfl,stage⟩
    · dsimp only [pollWait]
      rw [pollGate_ready through]
      exact Fate.heard_outcome waits .ready
    · have issues := s.pollCall_issues id call
      have polled : call.gate s = some (wait.poll s.now s.regulator.bucket) := by
        unfold Call.gate
        rw [stage]
      rw [polled,Option.map_some,if_pos (congrArg some through)] at issues
      show fate.heard (s.pollCall id call).2.2.issues (.progress (s.pollCall id call).1) = _
      rw [issues]
      exact Fate.heard_issue waits _ _ _
  · rw [pollHandle_stopped here gate through]
    exact Fate.heard_outcome waits _

theorem pollHandle_pending (here : s.lookup id = some handle) (gate : handle.wait? = some wait)
    (going : (wait.poll s.now s.regulator.bucket).outcome = .pending) :
    (s.pollHandle id).2.1.lookup id = some (handle.withWait (wait.poll s.now s.regulator.bucket).wait) := by
  have early : (wait.poll s.now s.regulator.bucket).outcome ≠ .ready := by
    rw [going]
    nofun
  rw [pollHandle_stopped here gate early,if_pos going]
  exact lookup_put _ _ _

theorem pollHandle_done (here : s.lookup id = some handle) (gate : handle.wait? = some wait)
    (done : (wait.poll s.now s.regulator.bucket).outcome ≠ .pending) :
    (s.pollHandle id).2.1.standing id = some .past := by
  obtain ⟨fate,stands,waits⟩ : ∃ fate : Fate, fate.Stands wait.standing ∧ (fate = .unpolled ∨ fate = .pending) := by
    cases booked : wait.booked with
    | none => exact ⟨.unpolled,by rw [Wait.standing_fresh booked]; exact .unpolled,.inl rfl⟩
    | some ready => exact ⟨.pending,by rw [Wait.standing_held booked]; exact .pending ready,.inr rfl⟩
  have here' : fate.Stands handle.standing := by
    rw [Handle.wait_standing gate]
    exact stands
  obtain ⟨standing,left,kept⟩ := (pollHandle_tells here here').stands
  rw [pollHandle_heard here gate waits] at kept
  rw [left]
  have settled := Fate.ofOutcome_settled done
  generalize Fate.ofOutcome (wait.poll s.now s.regulator.bucket).outcome = reached at kept settled
  cases kept with
  | unpolled => exact absurd rfl settled.1
  | pending => exact absurd rfl settled.2
  | past => rfl

def Undisturbed (s : Session α) (id : Nat) : List (Action α) → Prop
  | [] => True
  | action :: rest =>
    (s.turn action ≠ .drop id ∧ ∀ unpolled, s.turn action ≠ .start id unpolled) ∧
      (s.step action).2.1.Undisturbed id rest

section Step
variable (kept : s.turn action ≠ .drop id) (own : ∀ unpolled, s.turn action ≠ .start id unpolled)
include kept own

theorem step_ended (past : s.standing id = some .past) : (s.step action).2.1.standing id = some .past := by
  have stepped := s.step_stepped action
  generalize s.step action = ran at stepped ⊢
  cases stepped with
  | retuned => exact past
  | aside _ _ moves => exact ((asides_apart moves).standing id).trans past
  | polled other =>
    by_cases equal : other = id
    · subst equal
      obtain ⟨handle,here,stands⟩ := Option.map_eq_some_iff.mp past
      have settled : Fate.Settled .completed := by decide
      have tells := pollHandle_tells here (stands ▸ Fate.Stands.past settled)
      obtain ⟨standing,left,after⟩ := tells.stands
      rw [Fate.heard_settled settled] at after
      rw [left]
      cases after
      rfl
    · exact (congrArg (Option.map Handle.standing) (s.pollHandle_other (Ne.symm equal))).trans past
  | dropped other =>
    have different : id ≠ other := fun equal => kept (congrArg Turn.drop equal.symm)
    exact (congrArg (Option.map Handle.standing) (s.release_other different)).trans past
  | @launched unpolled _ other handle services instances _ turn =>
    have different : id ≠ other := fun equal => own unpolled (turn.trans (congrArg (Turn.start · unpolled) equal.symm))
    exact (congrArg (Option.map Handle.standing) (launch_other _ handle unpolled different)).trans past

theorem step_waiting (here : s.lookup id = some handle) (gate : handle.wait? = some wait)
    (held : wait.booked = some ready) (silent : action ≠ .cancel id) :
    action = .poll id ∧ (s.step action).2.1.standing id = some .past ∨
      (s.step action).2.1.lookup id = some handle := by
  have unread : s.readItem id = (none,s,.none) := by
    unfold readItem
    rw [here]
    rcases Handle.wait_cases gate with rfl | ⟨call,rfl,_⟩ <;> rfl
  by_cases mine : action.handle = some id
  · cases action with
    | acquire | acquireBefore | acquireCancellable =>
      cases mine
      exact absurd rfl (own _)
    | drop =>
      cases mine
      exact absurd rfl kept
    | cancel =>
      cases mine
      exact absurd rfl silent
    | poll =>
      cases mine
      by_cases going : (wait.poll s.now s.regulator.bucket).outcome = .pending
      · have left := pollHandle_pending here gate going
        rw [(Wait.poll_again held _ _).2 going,Handle.withWait_same gate] at left
        exact .inr left
      · exact .inl ⟨rfl,pollHandle_done here gate going⟩
    | call other number plan unpolled =>
      cases mine
      rcases s.call_cases id number plan with ⟨_,_,_,lost⟩ | ⟨_,_,_,_,_,started⟩
      · refine .inr ?_
        show (s.call id number plan unpolled).2.1.lookup id = _
        rw [(lost unpolled).2]
        exact here
      · exact absurd (started unpolled).1 (own unpolled)
    | next =>
      cases mine
      rw [step_next_rest,unread]
      exact .inr here
    | collect =>
      cases mine
      rw [step_collect_rest,readItems,unread]
      exact .inr here
    | callState =>
      refine .inr ?_
      unfold step
      dsimp only
      split <;> exact here
    | unwrap =>
      cases mine
      refine .inr ?_
      unfold step
      dsimp only
      rw [here]
      rcases Handle.wait_cases gate with rfl | ⟨call,rfl,_⟩ <;> exact here
    | _ => cases mine
  · exact .inr ((step_other s action mine).trans here)

end Step

theorem step_cancel (here : s.lookup id = some handle) (gate : handle.wait? = some wait) :
    (s.step (.cancel id)).2.1.lookup id = some handle.signal := by
  show (s.giveCancel id).2.lookup id = _
  unfold giveCancel
  rw [here]
  rcases Handle.wait_cases gate with rfl | ⟨call,rfl,_⟩
  · unfold Handle.signal
    dsimp only
    by_cases silent : wait.cancel = .silent
    · rw [if_pos silent,if_pos silent]
      exact lookup_put _ _ _
    · rw [if_neg silent,if_neg silent]
      exact here
  · exact here

theorem run_ended (steps : List (Action α)) (undisturbed : s.Undisturbed id steps) (past : s.standing id = some .past) :
    (s.run steps).2.standing id = some .past := by
  induction steps generalizing s with
  | nil => exact past
  | cons action rest ih =>
    obtain ⟨⟨kept,own⟩,later⟩ := undisturbed
    exact ih later (step_ended kept own past)

theorem standing_wait (here : s.lookup id = some handle) (gate : handle.wait? = some wait) (held : wait.booked = some ready) :
    s.standing id = some (.pending ready) := by
  rw [standing,here,Option.map_some,Handle.wait_standing gate,Wait.standing_held held]

theorem signal_held (held : wait.booked = some ready) (handle : Handle α) :
    (if handle.cancellable then { wait with cancel := .given } else wait).booked = some ready := by
  split <;> exact held

theorem run_waiting (steps : List (Action α)) (undisturbed : s.Undisturbed id steps)
    (here : s.lookup id = some handle) (gate : handle.wait? = some wait) (held : wait.booked = some ready) :
    .poll id ∈ steps ∧ (s.run steps).2.standing id = some .past ∨
      (.cancel id ∈ steps → (s.run steps).2.lookup id = some handle.signal) ∧
      (.cancel id ∉ steps → (s.run steps).2.lookup id = some handle) := by
  induction steps generalizing s handle wait with
  | nil => exact .inr ⟨nofun,fun _ => here⟩
  | cons action rest ih =>
    obtain ⟨⟨kept,own⟩,later⟩ := undisturbed
    by_cases signal : action = .cancel id
    · subst signal
      rcases ih later (step_cancel here gate) (Handle.wait_signal gate) (signal_held held handle) with ⟨polled,past⟩ | ⟨again,once⟩
      · exact .inl ⟨List.mem_cons_of_mem _ polled,past⟩
      · refine .inr ⟨fun _ => ?_,fun none => absurd List.mem_cons_self none⟩
        by_cases more : .cancel id ∈ rest
        · exact (again more).trans (congrArg some handle.signal_signal)
        · exact once more
    · rcases step_waiting kept own here gate held signal with ⟨rfl,past⟩ | still
      · exact .inl ⟨List.mem_cons_self,run_ended rest later past⟩
      · rcases ih later still gate held with ⟨polled,past⟩ | ⟨told,quiet⟩
        · exact .inl ⟨List.mem_cons_of_mem _ polled,past⟩
        · refine .inr ⟨fun member => told ?_,fun none => quiet fun member => none (List.mem_cons_of_mem _ member)⟩
          exact (List.mem_cons.mp member).resolve_left fun same => signal same.symm

theorem run_pending (steps : List (Action α)) (undisturbed : s.Undisturbed id steps)
    (here : s.lookup id = some handle) (gate : handle.wait? = some wait) (held : wait.booked = some ready)
    (unpolled : .poll id ∉ steps) : (s.run steps).2.standing id = some (.pending ready) := by
  rcases run_waiting steps undisturbed here gate held with ⟨polled,_⟩ | ⟨told,quiet⟩
  · exact absurd polled unpolled
  · by_cases member : .cancel id ∈ steps
    · exact standing_wait (told member) (Handle.wait_signal gate) (signal_held held handle)
    · exact standing_wait (quiet member) gate held

theorem poll_later {due : Nanos} (here : s.lookup id = some handle) (gate : handle.wait? = some wait)
    (held : wait.booked = some ready) (silent : wait.cancel ≠ .given) (steps : List (Action α))
    (undisturbed : s.Undisturbed id steps) (pending : (s.run steps).2.standing id = some (.pending due)) :
    let next := (s.run steps).2.step (.poll id)
    due = ready ∧ (Fate.pending.heard next.2.2.issues next.1).Ruled (Nanos.Rung ready (s.run steps).2.now)
      (handle.cancellable ∧ .cancel id ∈ steps) := by
  intro next
  have read {found : Handle α} {left : Wait} (there : (s.run steps).2.lookup id = some found)
      (behind : found.wait? = some left) (booked : left.booked = some ready) :
      due = ready ∧ (Fate.pending.heard next.2.2.issues next.1).Ruled (Nanos.Rung ready (s.run steps).2.now)
        (left.cancel = .given) := by
    have same := (standing_wait there behind booked).symm.trans pending
    refine ⟨(Standing.pending.inj (Option.some.inj same)).symm,?_⟩
    have heard : Fate.pending.heard next.2.2.issues next.1 = _ := pollHandle_heard there behind (.inr rfl)
    rw [heard,(Wait.poll_again booked _ _).1]
    exact Wait.rule_ruled _ _
  rcases run_waiting steps undisturbed here gate held with ⟨_,past⟩ | ⟨told,quiet⟩
  · rw [past] at pending
    cases pending
  · by_cases member : .cancel id ∈ steps
    · obtain ⟨same,ruled⟩ := read (told member) (Handle.wait_signal gate) (signal_held held handle)
      refine ⟨same,ruled.of_iff Iff.rfl ?_⟩
      by_cases heeds : handle.cancellable = true
      · rw [if_pos heeds]
        exact ⟨fun _ => ⟨heeds,member⟩,fun _ => rfl⟩
      · rw [if_neg heeds]
        exact ⟨fun given => absurd given silent,fun both => absurd both.1 heeds⟩
    · obtain ⟨same,ruled⟩ := read (quiet member) gate held
      exact ⟨same,ruled.of_iff Iff.rfl ⟨fun given => absurd given silent,fun both => absurd both.2 member⟩⟩

theorem step_at_once (turn : s.turn action = .start id false) :
    let begun := s.step action.left
    let polled := begun.2.1.step (.poll id)
    s.step action = (polled.1,polled.2.1,begun.2.2 ++ polled.2.2) := by
  obtain ⟨services,instances,handle,_,_,ran,left⟩ := start_launched turn
  rw [ran,left]
  exact launch_polled _ id handle

theorem acquireAwait_wakes (told : (s.regulator.bucket.refill s.now).readyAt s.now = some ready) :
    (s.step .acquireAwait).1 = .progress .ready ∧ ∃ millis,
      (s.step .acquireAwait).2.1.now = s.now + millis * Nanos.perMilli ∧ Nanos.DueIn ready s.now millis ∧
        ∀ sooner < millis, ¬ Nanos.DueIn ready s.now sooner := by
  have reserved : s.regulator.bucket.reserve s.now .anyTime = _ := Bucket.reserve_ready told trivial
  by_cases past : ready ≤ s.now
  · have ran : s.acquireAwait =
        (.ready,s.withBucket (s.regulator.bucket.refill s.now).take,.ofPass [.reserve s.now .anyTime] []) := by
      unfold acquireAwait
      rw [reserved]
      exact if_pos past
    unfold step
    dsimp only
    rw [ran]
    exact ⟨rfl,0,by rw [Nat.zero_mul]; rfl,.inl ⟨rfl,past⟩,fun _ before => absurd before (Nat.not_lt_zero _)⟩
  · have ran : s.acquireAwait =
        (.ready,{ s.withBucket (s.regulator.bucket.refill s.now).take with now := Nanos.wake ready s.now },
          .ofPass [.reserve s.now .anyTime] []) := by
      unfold acquireAwait
      rw [reserved]
      exact if_neg past
    unfold step
    dsimp only
    rw [ran]
    exact ⟨rfl,Nanos.wake_first past⟩

-- The timer goes by whole milliseconds, and its last tick ends all waits.
theorem wait_keeps_instant (told : (s.regulator.bucket.refill s.now).readyAt s.now = some ready) :
    (∀ id handle wait, s.lookup id = some handle → handle.wait? = some wait → wait.booked = none →
      wait.terms.Accept ready →
      let first := s.step (.poll id)
      let begun := Fate.unpolled.heard first.2.2.issues first.1
      begun.Ruled (ready ≤ s.now ∨ Nanos.lastTick ≤ s.now.floorMilli) (wait.cancel = .given) ∧
      ∀ steps, first.2.1.Undisturbed id steps →
        let later := (first.2.1.run steps).2
        let next := later.step (.poll id)
        let fate := Fate.pending.heard next.2.2.issues next.1
        (begun = .pending → .poll id ∉ steps → later.standing id = some (.pending ready)) ∧
        ∀ due, later.standing id = some (.pending due) → due = ready ∧
          fate.Ruled (ready.ceilMilli ≤ later.now.floorMilli ∨ Nanos.lastTick ≤ later.now.floorMilli)
            (handle.cancellable ∧ .cancel id ∈ steps) ∧
          (fate = .completed → later.now.floorMilli < Nanos.lastTick → ready ≤ later.now) ∧
          (ready + Nanos.perMilli ≤ later.now → fate = .completed)) ∧
    (∀ id action, s.turn action = .start id false →
      let begun := s.step action.left
      let polled := begun.2.1.step (.poll id)
      s.step action = (polled.1,polled.2.1,begun.2.2 ++ polled.2.2)) ∧
    (s.step .acquireAwait).1 = .progress .ready ∧ ∃ millis,
      (s.step .acquireAwait).2.1.now = s.now + millis * Nanos.perMilli ∧ Nanos.DueIn ready s.now millis ∧
        ∀ sooner < millis, ¬ Nanos.DueIn ready s.now sooner := by
  refine ⟨?_,fun _ _ => step_at_once,acquireAwait_wakes told⟩
  intro id handle wait here gate fresh accepted first begun
  obtain ⟨outcome,booked⟩ := Wait.poll_first fresh told accepted
  have heard : begun = .ofOutcome (wait.poll s.now s.regulator.bucket).outcome := pollHandle_heard here gate (.inl rfl)
  have ruled : begun.Ruled (ready ≤ s.now ∨ Nanos.lastTick ≤ s.now.floorMilli) (wait.cancel = .given) := by
    rw [heard,outcome]
    exact (Wait.rule_ruled _ _).of_iff (Nanos.due_ticks ready s.now) Iff.rfl
  refine ⟨ruled,?_⟩
  intro steps undisturbed later next fate
  by_cases going : (wait.poll s.now s.regulator.bucket).outcome = .pending
  · have pending : begun = .pending := by rw [heard,going]; rfl
    have left := pollHandle_pending here gate going
    rw [booked going] at left
    have behind := Handle.wait_withWait gate { wait with booked := some ready }
    refine ⟨fun _ unpolled => run_pending steps undisturbed left behind rfl unpolled,?_⟩
    intro due stands
    obtain ⟨same,again⟩ := poll_later left behind rfl (ruled.pending.mp pending).2 steps undisturbed stands
    rw [Handle.cancellable_booked gate] at again
    refine ⟨same,again.of_iff (Nanos.rung_ticks _ _) Iff.rfl,?_,?_⟩
    · exact fun completed ticks => Nanos.rung_past (again.completed.mp completed) ticks
    · exact fun passed => again.completed.mpr (Nanos.rung_after_milli passed)
  · have ended := run_ended steps undisturbed (pollHandle_done here gate going)
    have settled := Fate.ofOutcome_settled going
    rw [← heard] at settled
    exact ⟨fun pending => absurd pending settled.2,fun due stands => absurd (ended.symm.trans stands) nofun⟩

-- A nanosecond before the instant the wait is cancelled; at the instant it is over, signal or not.
theorem wait_keeps_instant_half_second :
    let opened : Session Unit := ⟨0,⟨2,2,2,none,⟨2,0,1,0⟩⟩,.of .default,[],[],0,0⟩
    let found := (opened.run [.tryAcquire,.acquireCancellable 0 false true]).2
    let first := found.step (.poll 0)
    let between : List (Action Unit) := [.setRate 100,.acquire 1 false,.drop 1,.cancel 0,.advance 499999999]
    let soon := (first.2.1.run between).2.step (.poll 0)
    let due := (first.2.1.run (between ++ [.advance 1])).2.step (.poll 0)
    Fate.pending.heard soon.2.2.issues soon.1 = .givenUp ∧ Fate.pending.heard due.2.2.issues due.1 = .completed ∧
      (found.step .acquireAwait).1 = .progress .ready := by
  intro opened found first between soon due
  have ready : (found.regulator.bucket.refill found.now).readyAt found.now = some 500000000 := by decide +kernel
  obtain ⟨polls,_,sleeps,_⟩ := wait_keeps_instant ready
  have apart := (polls 0 _ (.start .anyTime .silent) rfl rfl rfl trivial).2
  have pending : Fate.unpolled.heard first.2.2.issues first.1 = .pending := by decide +kernel
  have kept : first.2.1.Undisturbed 0 between := by simp [between,Undisturbed,turn]
  have longer : first.2.1.Undisturbed 0 (between ++ [.advance 1]) := by simp [between,Undisturbed,turn]
  obtain ⟨stands,ruled⟩ := apart _ kept
  obtain ⟨_,early,_⟩ := ruled _ (stands pending (by simp [between]))
  obtain ⟨stands,ruled⟩ := apart _ longer
  obtain ⟨_,late,_⟩ := ruled _ (stands pending (by simp [between]))
  have given := early.givenUp.mpr ⟨by decide +kernel,rfl,by simp [between]⟩
  have ended := late.completed.mpr (.inl (by decide +kernel))
  exact ⟨given,ended,sleeps⟩

theorem last_tick_completes_early :
    ∃ opened : Session Unit, gate 1 0 = .ok opened ∧
      let found := (opened.run [.advance (Nanos.lastTick * Nanos.perMilli),.tryAcquire,.acquire 0 true]).2
      found.standing 0 = some .unpolled ∧
      (found.regulator.bucket.refill found.now).readyAt found.now = some (found.now + Nanos.perSecond) ∧
      (found.step (.poll 0)).1 = .progress .ready := by
  let opened : Session Unit := ⟨0,⟨1,1,1,none,⟨1,0,1,0⟩⟩,.of .default,[],[],0,0⟩
  refine ⟨opened,gate_opened (by decide +kernel) (by decide +kernel),?_⟩
  intro found
  have polled : (Wait.poll (.start .anyTime .absent) found.now found.regulator.bucket).outcome = .ready := by decide +kernel
  have launched : Launched found 0 _ (found.pollHandle 0) := pollHandle_waiting rfl
  refine ⟨by decide +kernel,by decide +kernel,launched.answer.trans ?_⟩
  rw [polled]
  rfl

end Session
end LoadPacing
