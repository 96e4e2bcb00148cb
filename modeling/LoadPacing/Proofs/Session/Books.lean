import LoadPacing.Proofs.Bucket.Ledger
import LoadPacing.Proofs.Session.Moves
import LoadPacing.Proofs.Session.Openings
import Mathlib.Algebra.GroupWithZero.Nat

-- The permits that are out in a session are those of its pending handles and those that it let through.
namespace LoadPacing.Session

def held (s : Session α) : List Nanos := s.handles.flatMap fun entry => entry.2.standing.held

def ops (s : Session α) (actions : List (Action α)) : List Bucket.Op :=
  (s.run actions).1.flatMap fun ran => ran.2.ops

def passes (s : Session α) (actions : List (Action α)) : Nat :=
  ((s.run actions).1.map fun ran => ran.2.passed).sum

theorem run_state_append (s : Session α) (first second : List (Action α)) :
    (s.run (first ++ second)).2 = ((s.run first).2.run second).2 := by
  induction first generalizing s with
  | nil => rfl
  | cons action rest ih => exact ih _

theorem ops_cons (s : Session α) (action : Action α) (rest : List (Action α)) :
    s.ops (action :: rest) = (s.step action).2.2.ops ++ (s.step action).2.1.ops rest := rfl

theorem ops_append (s : Session α) (first second : List (Action α)) :
    s.ops (first ++ second) = s.ops first ++ (s.run first).2.ops second := by
  induction first generalizing s with
  | nil => rfl
  | cons action rest ih =>
    rw [List.cons_append,ops_cons,ops_cons,ih,List.append_assoc]
    rfl

structure Books (s : Session α) (live passed : List Nanos) : Prop where
  distinct : s.handles.Distinct
  past : s.regulator.bucket.refilled ≤ s.now
  out : live.Perm (s.held ++ passed)

-- What happens at the bucket keeps the books of a session, with so many permits let through.
structure Keeps (s : Session α) (ops : List Bucket.Op) (passes : Nat) (after : Session α) : Prop where
  bucket : after.regulator.bucket = s.regulator.bucket.run ops
  books : ∀ live passed, s.Books live passed → s.regulator.bucket.Orderly live ops ∧
    ∃ through, through.length = passes ∧
      after.Books (s.regulator.bucket.ledger live ops) (through ++ passed)

variable {s middle after : Session α} {id : Nat} {handle : Handle α} {live passed : List Nanos}

theorem held_put (s : Session α) (id : Nat) (handle : Handle α) :
    (s.put id handle).held = handle.standing.held ++ (s.forget id).held := rfl

theorem held_found (distinct : s.handles.Distinct) (found : s.lookup id = some handle) :
    s.held.Perm (handle.standing.held ++ (s.forget id).held) :=
  (Registry.perm_of_find distinct found).flatMap_right _

theorem forget_free (free : s.lookup id = none) : s.forget id = s := by
  unfold forget
  rw [Registry.without_absent free]

theorem Keeps.append (left : Keeps s x m middle) (right : Keeps middle y n after) :
    Keeps s (x ++ y) (m + n) after := by
  refine ⟨?_,?_⟩
  · rw [right.bucket,left.bucket,Bucket.run_append]
  · intro live passed books
    obtain ⟨first,through,some,kept⟩ := left.books live passed books
    obtain ⟨second,more,others,done⟩ := right.books _ _ kept
    rw [left.bucket] at second done
    refine ⟨(Bucket.orderly_append _ _ _ _).mpr ⟨first,second⟩,more ++ through,?_,?_⟩
    · rw [List.length_append,some,others,Nat.add_comm]
    · rw [Bucket.ledger_append,List.append_assoc]
      exact done

theorem proceed_keeps (found : s.lookup id = some handle) (same : next.standing = handle.standing) :
    Keeps s [] 0 (s.put id next) := by
  refine ⟨rfl,?_⟩
  intro live passed books
  refine ⟨trivial,[],rfl,Registry.distinct_put books.distinct,books.past,?_⟩
  have out := books.out.trans ((held_found books.distinct found).append_right passed)
  rwa [held_put,same]

theorem release_keeps (found : s.lookup id = some handle) :
    Keeps s (abandon handle) 0 ((s.forget id).operate (abandon handle)) := by
  refine ⟨rfl,?_⟩
  intro live passed books
  have out := books.out.trans ((held_found books.distinct found).append_right passed)
  have distinct : (s.forget id).handles.Distinct := Registry.distinct_without books.distinct
  rw [abandon_standing]
  cases standing : handle.standing with
  | unpolled | past =>
    rw [standing] at out
    exact ⟨trivial,[],rfl,distinct,books.past,out⟩
  | pending ready =>
    rw [standing] at out
    have rest : List.Perm (live.erase ready) ((s.forget id).held ++ passed) := by
      simpa using out.erase ready
    exact ⟨⟨out.mem_iff.mpr List.mem_cons_self,trivial⟩,[],rfl,distinct,books.past,rest⟩

theorem gated_keeps (found : s.lookup id = some handle) (same : handle.standing = wait.standing)
    (gated : Gated s id wait trace after) : Keeps s trace.ops trace.passed after := by
  have polling := wait.poll_polling s.now s.regulator.bucket
  obtain ⟨⟨next,issued,stands,rfl⟩,ops,passes,_⟩ := gated
  rw [ops,passes]
  refine ⟨polling.bucket_eq,?_⟩
  intro live passed books
  have out := books.out.trans ((held_found books.distinct found).append_right passed)
  rw [same,List.append_assoc] at out
  obtain ⟨orderly,through,some,kept⟩ := polling.ledger books.past out
  refine ⟨orderly,through,some,Registry.distinct_put books.distinct,?_,?_⟩
  · have refilled := Bucket.run_refilled _ _ polling.read books.past
    rw [← polling.bucket_eq] at refilled
    exact refilled
  · refine kept.trans ?_
    show List.Perm _ (next.standing.held ++ (s.forget id).held ++ (through ++ passed))
    rw [stands,List.append_assoc]
    exact (List.perm_append_comm_assoc _ _ _).append_left _

theorem take_keeps (s : Session α) (terms : Terms) :
    Keeps s [.reserve s.now terms] (s.regulator.bucket.reserve s.now terms).1.permits
      (s.withBucket (s.regulator.bucket.reserve s.now terms).2) := by
  refine ⟨rfl,?_⟩
  intro live passed books
  refine ⟨⟨books.past,trivial⟩,(s.regulator.bucket.reserve s.now terms).1.held,
    Booking.held_length _,books.distinct,?_,?_⟩
  · show (s.regulator.bucket.reserve s.now terms).2.refilled ≤ s.now
    rw [Bucket.reserve_refilled]
    exact Nat.max_le.mpr ⟨books.past,Nat.le_refl _⟩
  · exact (books.out.append_left _).trans (List.perm_append_comm_assoc _ _ _)

theorem retuned_keeps {ops : List Bucket.Op} (handles : after.handles = s.handles) (now : after.now = s.now)
    (bucket : after.regulator.bucket = s.regulator.bucket.run ops)
    (retuned : ops = [] ∨ ∃ rate, ops = [.retune rate]) : Keeps s ops 0 after := by
  refine ⟨bucket,?_⟩
  intro live passed books
  have read : ∀ op ∈ ops, op.At s.now := by
    rcases retuned with rfl | ⟨rate,rfl⟩ <;> simp [Bucket.Op.At]
  have past : after.regulator.bucket.refilled ≤ after.now := by
    rw [bucket,now]
    exact Bucket.run_refilled _ _ read books.past
  have held : after.held = s.held := by simp only [Session.held,handles]
  have distinct : after.handles.Distinct := handles ▸ books.distinct
  rcases retuned with rfl | ⟨rate,rfl⟩
  · exact ⟨trivial,[],rfl,distinct,past,by rw [held]; exact books.out⟩
  · exact ⟨⟨trivial,trivial⟩,[],rfl,distinct,past,by rw [held]; exact books.out⟩

theorem start_keeps (free : s.lookup id = none) (unpolled : handle.standing = .unpolled) :
    Keeps s [] 0 (s.put id handle) := by
  refine ⟨rfl,?_⟩
  intro live passed books
  refine ⟨trivial,[],rfl,Registry.distinct_put books.distinct,books.past,?_⟩
  rw [held_put,unpolled,forget_free free]
  exact books.out

theorem aside_keeps (move : Aside s trace after) : Keeps s trace.ops trace.passed after := by
  have bucket := move.effect.bucket_eq
  cases move with
  | take terms => exact s.take_keeps terms
  | proceed found same => exact proceed_keeps found same
  | @round outcome ran =>
    refine retuned_keeps rfl rfl bucket ?_
    cases verdict : outcome.1 with
    | applied previous current => exact .inr ⟨current,by simp [round,verdict,Verdict.ops]⟩
    | noSignal | outOfBounds | coolingDown => exact .inl (by simp [round,verdict,Verdict.ops])
  | report | furnish => exact retuned_keeps rfl rfl rfl (.inl rfl)

theorem move_keeps (move : Move s trace after) : Keeps s trace.ops trace.passed after := by
  cases move with
  | aside move => exact aside_keeps move
  | release found => exact release_keeps found
  | start free unpolled => exact start_keeps free unpolled
  | pollWait found => exact gated_keeps found rfl (pollGate_gated s _ _ [] (fun _ => rfl) rfl)
  | pollCall found stage =>
    exact gated_keeps found (Call.standing_atGate stage) (pollGate_gated s _ _ _ (fun _ => rfl) rfl)

theorem moves_keep (moves : Moves Move s trace after) : Keeps s trace.ops trace.passed after := by
  induction moves with
  | nil => exact retuned_keeps rfl rfl rfl (.inl rfl)
  | cons move _ ih => exact (move_keeps move).append ih

theorem step_keeps (s : Session α) (action : Action α) :
    Keeps s (s.step action).2.2.ops (s.step action).2.2.passed (s.step action).2.1 := by
  rcases (s.step_stepped action).moves with ⟨rate,_,after,trace⟩ | ⟨_,middle,now,moves,later,after⟩
  · rw [after,trace]
    exact retuned_keeps rfl rfl rfl (.inr ⟨rate,rfl⟩)
  · obtain ⟨bucket,kept⟩ := moves_keep moves
    rw [after]
    refine ⟨bucket,?_⟩
    intro live passed books
    obtain ⟨orderly,through,some,done⟩ := kept live passed books
    have past := done.past
    rw [moves.now_eq] at past
    exact ⟨orderly,through,some,done.distinct,Nat.le_trans past later,done.out⟩

theorem run_keeps (s : Session α) (actions : List (Action α)) :
    Keeps s (s.ops actions) (s.passes actions) (s.run actions).2 := by
  induction actions generalizing s with
  | nil => exact retuned_keeps rfl rfl rfl (.inl rfl)
  | cons action rest ih => exact (s.step_keeps action).append (ih _)

theorem fresh_books (fresh : s.Fresh) : s.Books [] [] := by
  obtain ⟨handles,rate,burst,made⟩ := fresh
  obtain ⟨_,_,_,bucket⟩ := Bucket.new_ok made
  refine ⟨?_,?_,?_⟩
  · rw [handles]; exact Registry.distinct_nil
  · exact Nat.le_of_eq (congrArg Bucket.refilled bucket)
  · simp [held,handles]

end LoadPacing.Session
