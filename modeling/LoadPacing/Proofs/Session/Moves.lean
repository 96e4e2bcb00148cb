import LoadPacing.Proofs.Bucket.Steps
import LoadPacing.Proofs.Regulator.Rounds
import LoadPacing.Session.Step

-- Each action comes down to a few kinds of moves; what every move preserves, every run does.
namespace LoadPacing

def Handle.standing : Handle α → Standing
  | .waiting wait => wait.standing
  | .calling { stage := .atGate wait, .. } => wait.standing
  | .calling { stage := .issued _, .. } => .past
  | .relaying _ | .bare _ | .finished => .past

theorem Call.standing_stage {call : Call α} (stage : call.stage = .issued pauses) :
    (Handle.calling call).standing = .past := by
  obtain ⟨backend,tuning,plan,_⟩ := call
  cases stage
  rfl

theorem Call.standing_atGate {call : Call α} (stage : call.stage = .atGate wait) :
    (Handle.calling call).standing = wait.standing := by
  obtain ⟨backend,tuning,plan,_⟩ := call
  cases stage
  rfl

namespace Trace
variable (t u v : Trace α)

@[simp] theorem append_ops : (t ++ u).ops = t.ops ++ u.ops := rfl
@[simp] theorem append_notices : (t ++ u).notices = t.notices ++ u.notices := rfl
@[simp] theorem append_passed : (t ++ u).passed = t.passed + u.passed := rfl
@[simp] theorem append_issues : (t ++ u).issues = t.issues ++ u.issues := rfl
@[simp] theorem append_verdicts : (t ++ u).verdicts = t.verdicts ++ u.verdicts := rfl

theorem none_append : Trace.none ++ t = t := by
  show Trace.mk _ _ _ _ _ = t
  simp [Trace.none]

theorem append_none : t ++ Trace.none = t := by
  show Trace.mk _ _ _ _ _ = t
  simp [Trace.none]

theorem append_assoc : t ++ u ++ v = t ++ (u ++ v) := by
  show Trace.mk _ _ _ _ _ = Trace.mk _ _ _ _ _
  simp [Nat.add_assoc]

end Trace

namespace Session

theorem abandon_standing (handle : Handle α) : abandon handle = handle.standing.ops := by
  cases handle with
  | waiting wait => exact wait.abandon_standing
  | calling call =>
    obtain ⟨backend,tuning,plan,stage⟩ := call
    cases stage with
    | atGate wait => exact wait.abandon_standing
    | issued pauses => rfl
  | relaying relay => rfl
  | bare script => rfl
  | finished => rfl

-- Moves that leave every handle where it stands with the gate.
inductive Aside : Session α → Trace α → Session α → Prop where
  | take (terms : Terms) :
      Aside s ⟨[.reserve s.now terms],[],[],(s.regulator.bucket.reserve s.now terms).1.permits,[]⟩
        (s.withBucket (s.regulator.bucket.reserve s.now terms).2)
  | proceed {s : Session α} {id : Nat} {handle after : Handle α}
      (found : s.lookup id = some handle) (same : after.standing = handle.standing) :
      Aside s .none (s.put id after)
  | round (ran : Regulator.Round s.regulator s.now outcome) :
      Aside s (s.round outcome).2.2 (s.round outcome).2.1
  | report (callNotice : notice = .callStarted ∨ notice = .callCompleted) : Aside s (.ofNotices [notice]) s
  | furnish (services : List Service) (instances : Nat) : Aside s .none { s with services, instances }

inductive Move : Session α → Trace α → Session α → Prop where
  | aside (move : Aside s trace after) : Move s trace after
  | release {s : Session α} {id : Nat} {handle : Handle α} (found : s.lookup id = some handle) :
      Move s (.ofOps (abandon handle)) ((s.forget id).operate (abandon handle))
  | start {s : Session α} {id : Nat} {handle : Handle α} (free : s.lookup id = none) (unpolled : handle.standing = .unpolled) :
      Move s .none (s.put id handle)
  | pollWait {s : Session α} {id : Nat} {wait : Wait} (found : s.lookup id = some (.waiting wait)) :
      Move s (s.pollGate id wait .waiting .finished []).2.2 (s.pollGate id wait .waiting .finished []).2.1
  | pollCall {s : Session α} {id : Nat} {call : Call α} {wait : Wait}
      (found : s.lookup id = some (.calling call)) (stage : call.stage = .atGate wait) :
      Move s (s.pollCallGate id call wait).2.2 (s.pollCallGate id call wait).2.1

inductive Moves (kind : Session α → Trace α → Session α → Prop) : Session α → Trace α → Session α → Prop where
  | nil : Moves kind s .none s
  | cons : kind s x middle → Moves kind middle y after → Moves kind s (x ++ y) after

theorem Moves.one (move : kind s trace after) : Moves kind s trace after := by
  simpa only [Trace.append_none] using Moves.cons move .nil

theorem Moves.append (left : Moves kind s x middle) (right : Moves kind middle y after) :
    Moves kind s (x ++ y) after := by
  induction left with
  | nil => rwa [Trace.none_append]
  | cons move _ ih => simpa only [Trace.append_assoc] using Moves.cons move (ih right)

theorem Moves.silent (left : Moves kind s .none middle) (right : Moves kind middle trace after) :
    Moves kind s trace after := by
  simpa only [Trace.none_append] using left.append right

section Along
variable {kind other : Session α → Trace α → Session α → Prop} {s after : Session α} {trace : Trace α}

-- What each move of a chain comes to, is or leaves alone, the whole chain does.
theorem Moves.made (moves : Moves kind s trace after)
    (each : ∀ {s trace after}, kind s trace after → Moves other s trace after) : Moves other s trace after := by
  induction moves with
  | nil => exact .nil
  | cons move _ ih => exact (each move).append ih

theorem Moves.holds {P : Session α → Prop} (moves : Moves kind s trace after) (here : P s)
    (each : ∀ {s trace after}, kind s trace after → P s → P after) : P after := by
  induction moves with
  | nil => exact here
  | cons move _ ih => exact ih (each move here)

theorem Moves.keeps {β : Type} {f : Session α → β} (moves : Moves kind s trace after)
    (each : ∀ {s trace after}, kind s trace after → f after = f s) : f after = f s :=
  moves.holds (P := fun later => f later = f s) rfl fun move same => (each move).trans same

theorem Moves.leaves {P : Trace α → Prop} (moves : Moves kind s trace after) (nothing : P .none)
    (append : ∀ {x y}, P x → P y → P (x ++ y)) (each : ∀ {s trace after}, kind s trace after → P trace) : P trace := by
  induction moves with
  | nil => exact nothing
  | cons move _ ih => exact append (each move) ih

end Along

theorem Moves.any (moves : Moves Aside s trace after) : Moves Move s trace after :=
  moves.made fun move => .one (.aside move)

theorem Aside.now_eq (move : Aside s trace after) : after.now = s.now := by
  cases move <;> rfl

theorem Move.now_eq (move : Move s trace after) : after.now = s.now := by
  cases move with
  | aside move => exact move.now_eq
  | release | start => rfl
  | pollWait => unfold pollGate; dsimp only; split <;> rfl
  | pollCall => unfold pollCallGate pollGate; dsimp only; split <;> rfl

theorem Moves.now_eq (moves : Moves Move s trace after) : after.now = s.now := moves.keeps Move.now_eq

-- The handle stands where the poll left its wait.
structure Gated (s : Session α) (id : Nat) (wait : Wait) (trace : Trace α) (after : Session α) : Prop where
  handle : ∃ handle issued, handle.standing = (wait.poll s.now s.regulator.bucket).standing ∧
    after = { (s.withBucket (wait.poll s.now s.regulator.bucket).bucket).put id handle with issued }
  ops : trace.ops = (wait.poll s.now s.regulator.bucket).ops
  passed : trace.passed = (wait.poll s.now s.regulator.bucket).passed
  verdicts : trace.verdicts = []

theorem pollGate_gated (s : Session α) (id : Nat) (wait : Wait) {waiting : Wait → Handle α}
    {through : Handle α} (issues : List (Issue α)) (kept : ∀ w, (waiting w).standing = w.standing)
    (past : through.standing = .past) :
    Gated s id wait (s.pollGate id wait waiting through issues).2.2
      (s.pollGate id wait waiting through issues).2.1 := by
  unfold pollGate
  dsimp only
  split <;> (rename_i eq; refine ⟨⟨_,_,?_,rfl⟩,rfl,?_,rfl⟩)
  · simp [Wait.Polled.standing,eq,kept]
  · simp [Wait.Polled.passed,eq,Trace.ofOps]
  · simp [Wait.Polled.standing,eq,past]
  · simp [Wait.Polled.passed,eq,Trace.ofPass]
  · simp [Wait.Polled.standing,eq,Handle.standing]
  · simp [Wait.Polled.passed,eq,Trace.ofOps]
  · simp [Wait.Polled.standing,eq,Handle.standing]
  · simp [Wait.Polled.passed,eq,Trace.ofOps]

theorem lookup_put (s : Session α) (id : Nat) (handle : Handle α) :
    (s.put id handle).lookup id = some handle := Registry.find_put

theorem release_moves (s : Session α) (id : Nat) :
    Moves Move s (s.release id).2.2 (s.release id).2.1 ∧ (s.release id).2.1.lookup id = none := by
  unfold release
  cases found : s.lookup id with
  | none => exact ⟨.nil,found⟩
  | some handle => exact ⟨.one (.release found),Registry.find_without⟩

theorem past_moves {s : Session α} {id : Nat} {handle after : Handle α}
    (found : s.lookup id = some handle) (past : handle.standing = .past) (stays : after.standing = .past) :
    Moves Aside s .none (s.put id after) := .one (.proceed found (stays.trans past.symm))

theorem proceed_moves (s : Session α) {id : Nat} {handle : Handle α} (call : Call α) (pauses : Nat)
    (found : s.lookup id = some handle) (past : handle.standing = .past) :
    Moves Aside s (s.proceed id call pauses).2.2 (s.proceed id call pauses).2.1 := by
  cases pauses with
  | succ pauses => exact past_moves found past rfl
  | zero =>
    unfold proceed
    cases call.plan.outcome with
    | ok script => exact .silent (past_moves found past rfl) (.one (.report (.inl rfl)))
    | error failure =>
      dsimp only
      split
      · have round : Aside s _ _ := .round (.deadline call.tuning)
        simpa only [Trace.append_none] using Moves.cons round (past_moves found past rfl)
      · exact past_moves found past rfl

theorem pollCallGate_issued (s : Session α) (id : Nat) (call : Call α) (wait : Wait)
    (ready : (s.pollCallGate id call wait).1 = .ready) :
    (s.pollCallGate id call wait).2.1.lookup id =
      some (.calling { call with stage := .issued call.plan.pauses }) := by
  unfold pollCallGate pollGate at ready ⊢
  dsimp only at ready ⊢
  split at ready
  · cases ready
  · exact lookup_put _ _ _
  · cases ready
  · cases ready

theorem pollCall_moves (s : Session α) {id : Nat} {call : Call α}
    (found : s.lookup id = some (.calling call)) :
    Moves Move s (s.pollCall id call).2.2 (s.pollCall id call).2.1 := by
  unfold pollCall
  split
  · rename_i stage
    exact (s.proceed_moves call _ found (Call.standing_stage stage)).any
  · rename_i wait stage
    have gated := Move.pollCall found stage
    dsimp only
    split
    · rename_i ready
      exact .cons gated (proceed_moves _ call _ (s.pollCallGate_issued id call wait ready) rfl).any
    · exact .one gated

theorem pollHandle_moves (s : Session α) (id : Nat) :
    Moves Move s (s.pollHandle id).2.2 (s.pollHandle id).2.1 := by
  unfold pollHandle
  split
  · exact .nil
  · rename_i found; exact .one (.pollWait found)
  · rename_i found; exact s.pollCall_moves found
  · exact .nil

theorem launch_moves (s : Session α) (id : Nat) {handle : Handle α} (unpolled : Bool)
    (fresh : handle.standing = .unpolled) :
    Moves Move s (s.launch id handle unpolled).2.2 (s.launch id handle unpolled).2.1 := by
  obtain ⟨released,free⟩ := s.release_moves id
  have started := Moves.one (Move.start free fresh)
  unfold launch
  cases unpolled with
  | true =>
    have both := released.append started
    rw [Trace.append_none] at both
    exact both
  | false => exact released.append (.silent started (pollHandle_moves _ id))

-- A loop by its cases: no attempt is left, one ends it, or one is granted in front of the others.
theorem drain_induct {P : Nat → Session α → Result α (Option Nat) → Prop} (nothing : ∀ taken s, P taken s (some taken,s,.none))
    (refused : ∀ taken s, s.tryAcquire.1 = .refused → P taken s (some taken,s.tryAcquire.2))
    (overflow : ∀ taken s, s.tryAcquire.1 = .overflow → P taken s (none,s.tryAcquire.2))
    (booked : ∀ taken s ready later, s.tryAcquire.1 = .booked ready → P (taken + 1) s.tryAcquire.2.1 later →
      P taken s (later.1,later.2.1,s.tryAcquire.2.2 ++ later.2.2))
    (most taken : Nat) (s : Session α) : P taken s (drain most taken s) := by
  induction most generalizing taken s with
  | zero => exact nothing taken s
  | succ most ih =>
    have refused := refused taken s
    have overflow := overflow taken s
    have booked := fun ready later => booked taken s ready later
    unfold drain
    generalize s.tryAcquire = tried at refused overflow booked ⊢
    obtain ⟨booking,after,trace⟩ := tried
    cases booking with
    | refused => exact refused rfl
    | overflow => exact overflow rfl
    | booked ready => exact booked ready _ rfl (ih _ _)

inductive Tries : Session α → Trace α → Session α → Prop where
  | mk (s : Session α) : Tries s s.tryAcquire.2.2 s.tryAcquire.2.1

theorem drain_tries (most taken : Nat) (s : Session α) :
    Moves Tries s (drain most taken s).2.2 (drain most taken s).2.1 :=
  drain_induct (P := fun _ s drained => Moves Tries s drained.2.2 drained.2.1) (fun _ _ => .nil)
    (fun _ s _ => .one (.mk s)) (fun _ s _ => .one (.mk s)) (fun _ s _ _ _ later => .cons (.mk s) later) most taken s

theorem drain_moves (most taken : Nat) (s : Session α) :
    Moves Aside s (drain most taken s).2.2 (drain most taken s).2.1 :=
  (drain_tries most taken s).made fun | .mk _ => .one (.take _)

theorem readItem_moves (s : Session α) (id : Nat) :
    Moves Aside s (s.readItem id).2.2 (s.readItem id).2.1 := by
  unfold readItem
  split
  · rename_i found; exact .one (.proceed found rfl)
  · rename_i relay found
    have went : Moves Aside s .none (s.put id (.relaying relay.next.2.1)) := .one (.proceed found rfl)
    dsimp only
    split
    · exact went
    · exact .silent went (.one (.report (.inr rfl)))
    · exact .silent went (.one (.round (.hear _ _)))
  · exact .nil

theorem readItems_induct {id : Nat} {P : Nat → Session α → Result α (List (Next α)) → Prop} (nothing : ∀ s, P 0 s ([],s,.none))
    (last : ∀ fuel s item, (item = none ∨ item = some .pending ∨ item = some .ended) → (s.readItem id).1 = item →
      P (fuel + 1) s (item.toList,(s.readItem id).2))
    (further : ∀ fuel s item later, item ≠ .pending → item ≠ .ended → (s.readItem id).1 = some item →
      P fuel (s.readItem id).2.1 later →
      P (fuel + 1) s (item :: later.1,later.2.1,(s.readItem id).2.2 ++ later.2.2))
    (fuel : Nat) (s : Session α) : P fuel s (readItems fuel id s) := by
  induction fuel generalizing s with
  | zero => exact nothing s
  | succ fuel ih =>
    have last := last fuel s
    have further := fun item later => further fuel s item later
    unfold readItems
    generalize s.readItem id = read at last further ⊢
    obtain ⟨item,after,trace⟩ := read
    cases item with
    | none => exact last none (.inl rfl) rfl
    | some item =>
      cases item with
      | pending => exact last _ (.inr (.inl rfl)) rfl
      | ended => exact last _ (.inr (.inr rfl)) rfl
      | response | failure => exact further _ _ nofun nofun rfl (ih _)

inductive Reads (id : Nat) : Session α → Trace α → Session α → Prop where
  | mk (s : Session α) : Reads id s (s.readItem id).2.2 (s.readItem id).2.1

theorem readItems_reads (fuel id : Nat) (s : Session α) :
    Moves (Reads id) s (readItems fuel id s).2.2 (readItems fuel id s).2.1 :=
  readItems_induct (P := fun _ s read => Moves (Reads id) s read.2.2 read.2.1) (fun _ => .nil)
    (fun _ s _ _ _ => .one (.mk s)) (fun _ s _ _ _ _ _ later => .cons (.mk s) later) fuel s

theorem readItems_moves (fuel id : Nat) (s : Session α) :
    Moves Aside s (readItems fuel id s).2.2 (readItems fuel id s).2.1 :=
  (readItems_reads fuel id s).made fun | .mk _ => readItem_moves _ id

theorem giveCancel_moves (s : Session α) (id : Nat) : Moves Aside s .none (s.giveCancel id).2 := by
  unfold giveCancel
  split
  · rename_i found
    split
    · exact .one (.proceed found rfl)
    · exact .nil
  · exact .nil

inductive Effect (r : Regulator) (now : Nanos) : List Bucket.Op → List Verdict → Regulator → Prop where
  | settled (settled : r.Settled now verdict after) : Effect r now verdict.ops [verdict] after
  | operated (inward : ∀ op ∈ ops, op.Inward) :
      Effect r now ops [] { r with bucket := r.bucket.run ops }

theorem Effect.bucket_eq {now : Nanos} (effect : Effect r now ops verdicts after) : after.bucket = r.bucket.run ops := by
  cases effect with
  | operated inward => rfl
  | settled settled =>
    rcases settled with ⟨rate,_,rfl,rfl⟩ | ⟨unapplied,rfl⟩
    · rfl
    · rw [Verdict.ops_unapplied unapplied]
      rfl

theorem Gated.effect {s : Session α} {id : Nat} (gated : Gated s id wait trace after) :
    Effect s.regulator s.now trace.ops trace.verdicts after.regulator := by
  have polling := wait.poll_polling s.now s.regulator.bucket
  obtain ⟨⟨handle,issued,_,rfl⟩,ops,_,quiet⟩ := gated
  have operated : Effect s.regulator s.now _ [] _ := .operated polling.inward
  rw [← polling.bucket_eq] at operated
  rw [ops,quiet]
  exact operated

theorem Standing.inward (standing : Standing) : ∀ op ∈ standing.ops, op.Inward := by
  cases standing <;> simp [Standing.ops,Bucket.Op.Inward]

theorem Aside.effect (move : Aside s trace after) :
    Effect s.regulator s.now trace.ops trace.verdicts after.regulator := by
  cases move with
  | take terms => exact .operated (by simp [Bucket.Op.Inward])
  | round ran => exact .settled ran.settled
  | proceed | report | furnish => exact .operated (List.forall_mem_nil _)

theorem Move.effect (move : Move s trace after) :
    Effect s.regulator s.now trace.ops trace.verdicts after.regulator := by
  cases move with
  | aside move => exact move.effect
  | start => exact .operated (List.forall_mem_nil _)
  | release found =>
    rw [abandon_standing]
    exact .operated (Standing.inward _)
  | pollWait => exact (pollGate_gated s _ _ [] (fun _ => rfl) rfl).effect
  | pollCall => exact (pollGate_gated s _ _ _ (fun _ => rfl) rfl).effect

-- What an action has to do with the handles at the gate.
inductive Turn where
  | start (id : Nat) (unpolled : Bool)
  | poll (id : Nat)
  | drop (id : Nat)
  | aside
  deriving DecidableEq

def turn (s : Session α) : Action α → Turn
  | .acquire id unpolled | .acquireBefore id _ unpolled | .acquireCancellable id _ unpolled =>
    .start id unpolled
  | .call id number _ unpolled =>
    match s.services[number]? with
    | none => .aside
    | some service => if (service.deadline s.now).isSome then .start id unpolled else .aside
  | .poll id => .poll id
  | .drop id => .drop id
  | _ => .aside

inductive Stepped (s : Session α) : Action α → Result α (Answer α) → Prop where
  | retuned (rate : Binary64) :
      Stepped s (.setRate rate)
        (.done,s.operate [.retune rate],
          ⟨[.retune rate],if rate.Positive then [] else [.invalidRate rate],[],0,[]⟩)
  | aside {action : Action α} {now : Nanos} (inside : ∀ rate, action ≠ .setRate rate)
      (turn : s.turn action = .aside) (moves : Moves Aside s trace middle) (later : s.now ≤ now) :
      Stepped s action (answer,{ middle with now },trace)
  | polled (id : Nat) : Stepped s (.poll id) (s.pollHandle id)
  | dropped (id : Nat) : Stepped s (.drop id) (.flag (s.release id).1,(s.release id).2)
  | launched {action : Action α} {id : Nat} {handle : Handle α} (services : List Service) (instances : Nat)
      (inside : ∀ rate, action ≠ .setRate rate) (turn : s.turn action = .start id unpolled)
      (fresh : handle.standing = .unpolled) :
      Stepped s action ({ s with services, instances }.launch id handle unpolled)

theorem Stepped.still {s after : Session α} {action : Action α} (inside : ∀ rate, action ≠ .setRate rate)
    (turn : s.turn action = .aside) (moves : Moves Aside s trace after) :
    Stepped s action (answer,after,trace) := by
  have stepped : Stepped s action (answer,{ after with now := s.now },trace) :=
    .aside inside turn moves (Nat.le_refl _)
  rwa [← moves.any.now_eq] at stepped

theorem Stepped.moves {s : Session α} {action : Action α} {stepped : Result α (Answer α)}
    (step : Stepped s action stepped) :
    (∃ rate, action = .setRate rate ∧ stepped.2.1 = s.operate [.retune rate] ∧
      stepped.2.2 = ⟨[.retune rate],if rate.Positive then [] else [.invalidRate rate],[],0,[]⟩) ∨
    (∀ rate, action ≠ .setRate rate) ∧ ∃ middle now, Moves Move s stepped.2.2 middle ∧ s.now ≤ now ∧
      stepped.2.1 = { middle with now } := by
  cases step with
  | retuned rate => exact .inl ⟨rate,rfl,rfl,rfl⟩
  | aside inside turn moves later => exact .inr ⟨inside,_,_,moves.any,later,rfl⟩
  | polled id =>
    have moves := s.pollHandle_moves id
    exact .inr ⟨nofun,_,_,moves,Nat.le_of_eq moves.now_eq.symm,rfl⟩
  | dropped id =>
    have moves := (s.release_moves id).1
    exact .inr ⟨nofun,_,_,moves,Nat.le_of_eq moves.now_eq.symm,rfl⟩
  | @launched unpolled _ id handle services instances inside turn fresh =>
    have furnished : Moves Move s .none { s with services, instances } := .one (.aside (.furnish _ _))
    have moves := furnished.silent (launch_moves _ id unpolled fresh)
    exact .inr ⟨inside,_,_,moves,Nat.le_of_eq moves.now_eq.symm,rfl⟩

theorem acquireAwait_moves (s : Session α) :
    ∃ middle now, Moves Aside s s.acquireAwait.2.2 middle ∧ s.now ≤ now ∧
      s.acquireAwait.2.1 = { middle with now } := by
  have taken : Moves Aside s _ _ := .one (.take .anyTime)
  unfold acquireAwait
  dsimp only
  split
  · rename_i ready bucket eq
    rw [eq] at taken
    split
    · exact ⟨_,s.now,taken,Nat.le_refl _,rfl⟩
    · exact ⟨_,_,taken,Nat.le_add_right _ _,rfl⟩
  · rename_i outcome bucket lost eq
    rw [eq] at taken
    have none : outcome.permits = 0 := by
      cases outcome with
      | booked ready => exact absurd rfl (lost ready)
      | refused | overflow => rfl
    rw [none] at taken
    exact ⟨_,s.now,taken,Nat.le_refl _,rfl⟩

-- Without the service, or past the end of the clock, it is lost.
theorem call_cases (s : Session α) (id number : Nat) (plan : Plan α) :
    (∃ services instances answer, ∀ unpolled, s.turn (.call id number plan unpolled) = .aside ∧
      s.call id number plan unpolled = (answer,{ s with services, instances },.none)) ∨
    ∃ services instances, ∃ (service : Service) (terms : Terms), service.deadline s.now = some terms ∧
      ∀ unpolled, s.turn (.call id number plan unpolled) = .start id unpolled ∧
        s.call id number plan unpolled =
          { s with services, instances }.launch id (.calling (service.call terms plan)) unpolled := by
  have same : s.createBackend.2.now = s.now := rfl
  unfold call
  cases found : s.services[number]? with
  | none => exact .inl ⟨_,_,_,fun unpolled => ⟨by simp [turn,found],rfl⟩⟩
  | some service =>
    dsimp only
    rw [same]
    cases deadline : service.deadline s.now with
    | none => exact .inl ⟨_,_,_,fun unpolled => ⟨by simp [turn,found,deadline],rfl⟩⟩
    | some terms => exact .inr ⟨_,_,service,terms,deadline,fun unpolled => ⟨by simp [turn,found,deadline],rfl⟩⟩

theorem call_stepped (s : Session α) (id number : Nat) (plan : Plan α) (unpolled : Bool) :
    Stepped s (.call id number plan unpolled) (s.call id number plan unpolled) := by
  rcases s.call_cases id number plan with ⟨services,instances,_,lost⟩ | ⟨services,instances,_,_,_,started⟩
  · obtain ⟨turn,eq⟩ := lost unpolled
    rw [eq]
    exact .still nofun turn (.one (.furnish services instances))
  · obtain ⟨turn,eq⟩ := started unpolled
    rw [eq]
    exact .launched services instances nofun turn rfl

theorem step_stepped (s : Session α) (action : Action α) : Stepped s action (s.step action) := by
  cases action with
  | setRate rate => exact .retuned rate
  | advance duration => exact .aside nofun rfl .nil (Nat.le_add_right _ _)
  | acquireAwait =>
    obtain ⟨middle,now,moves,later,eq⟩ := s.acquireAwait_moves
    have stepped : Stepped s .acquireAwait
        (.progress s.acquireAwait.1,{ middle with now },s.acquireAwait.2.2) := .aside nofun rfl moves later
    rwa [← eq] at stepped
  | tryAcquire =>
    have tried : Moves Aside s s.tryAcquire.2.2 s.tryAcquire.2.1 := .one (.take (.by s.now))
    unfold step; dsimp only
    split <;> (rename_i eq; rw [eq] at tried; exact .still nofun rfl tried)
  | drain most =>
    have drained := drain_moves most 0 s
    unfold step; dsimp only
    split <;> (rename_i eq; rw [eq] at drained; exact .still nofun rfl drained)
  | acquire id unpolled => exact .launched s.services s.instances nofun rfl rfl
  | acquireBefore id within unpolled => exact .launched s.services s.instances nofun rfl rfl
  | acquireCancellable id given unpolled => exact .launched s.services s.instances nofun rfl rfl
  | cancel id => exact .still nofun rfl (s.giveCancel_moves id)
  | poll id => exact .polled id
  | drop id => exact .dropped id
  | observe service samples =>
    unfold step; dsimp only
    split
    · exact .still nofun rfl .nil
    · exact .still nofun rfl (.one (.round (.observe _ _)))
  | observeDeadline service =>
    unfold step; dsimp only
    split
    · exact .still nofun rfl .nil
    · exact .still nofun rfl (.one (.round (.deadline _)))
  | contains rate => exact .still nofun rfl .nil
  | stats => exact .still nofun rfl .nil
  | instanceOf number => unfold step; dsimp only; split <;> exact .still nofun rfl .nil
  | clone number =>
    unfold step; dsimp only
    split
    · exact .still nofun rfl .nil
    · exact .still nofun rfl (.one (.furnish _ _))
  | layer => exact .still nofun rfl (.one (.furnish _ _))
  | shareService settings =>
    unfold step; dsimp only
    split <;> exact .still nofun rfl (.one (.furnish _ _))
  | shareLayer settings =>
    unfold step; dsimp only
    split
    · exact .still nofun rfl .nil
    · exact .still nofun rfl (.one (.furnish _ _))
  | pollReady number inner =>
    unfold step; dsimp only
    unfold pollReady
    split
    · exact .still nofun rfl .nil
    · exact .still nofun rfl (.one (.furnish _ _))
  | call id number plan unpolled => exact s.call_stepped id number plan unpolled
  | next id =>
    have one := s.readItem_moves id
    unfold step; dsimp only
    split <;> (rename_i eq; rw [eq] at one; exact .still nofun rfl one)
  | collect id =>
    have all := readItems_moves (s.scriptLength id + 1) id s
    unfold step; dsimp only
    split <;> (rename_i eq; rw [eq] at all; exact .still nofun rfl all)
  | callState id => unfold step; dsimp only; split <;> exact .still nofun rfl .nil
  | unwrap id =>
    unfold step; dsimp only
    split
    · rename_i found; exact .still nofun rfl (.one (.proceed found rfl))
    · exact .still nofun rfl .nil

theorem run_always {P : Session α → Prop} {s : Session α} (here : P s)
    (each : ∀ {s} action, P s → P (s.step action).2.1) (actions : List (Action α)) : P (s.run actions).2 := by
  induction actions generalizing s with
  | nil => exact here
  | cons action rest ih => exact ih (each action here)

end Session
end LoadPacing
