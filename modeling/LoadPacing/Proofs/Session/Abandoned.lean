import LoadPacing.Proofs.Bucket.Abandoning
import LoadPacing.Proofs.Session.FirstPolls
import LoadPacing.Proofs.Session.Waits

-- Waits that are given up at the instant at which they were begun.
namespace LoadPacing

inductive Abandonment where
  | dropped (id : Nat)
  | cancelled (id : Nat)
  deriving DecidableEq

namespace Abandonment

def id : Abandonment → Nat
  | .dropped id | .cancelled id => id

def actions : Abandonment → List (Action α)
  | .dropped id => [.acquire id false,.drop id]
  | .cancelled id => [.acquireCancellable id true false]

end Abandonment

namespace Session
variable {s left : Session α} {id : Nat} {ready : Nanos}

-- One permit is booked and given back, and no handle holds one that did not.
structure GivenUp (s : Session α) (ready : Nanos) (ops : List Bucket.Op) (left : Session α) : Prop where
  now : left.now = s.now
  bucket : left.regulator.bucket = (s.regulator.bucket.reserve s.now .anyTime).2.giveBack
  ops : ops = [.reserve s.now .anyTime,.giveBack ready]
  idle : ∀ id, s.Idle id → left.Idle id

section Round
variable (booked : (s.regulator.bucket.reserve s.now .anyTime).1 = .booked ready)
  (early : ¬ (ready ≤ s.now ∨ Nanos.Rung ready s.now))
include booked early

theorem poll_abandoned (cancel : CancelSignal) :
    (Wait.start .anyTime cancel).poll s.now s.regulator.bucket =
      (Wait.start .anyTime cancel).hold ready (s.regulator.bucket.reserve s.now .anyTime).2
        [.reserve s.now .anyTime] := by
  obtain ⟨told,left⟩ := Bucket.reserve_booking booked
  rw [left]
  exact Wait.poll_early rfl told trivial early

theorem dropped_givenUp (idle : s.Idle id) :
    GivenUp s ready (s.ops (Abandonment.dropped id).actions) (s.run (Abandonment.dropped id).actions).2 := by
  have launched := launch_idle idle (.start .anyTime .absent)
  rw [poll_abandoned booked early] at launched
  have dropped := drop_pending launched.standing
  refine ⟨dropped.now.trans launched.now,dropped.bucket.trans (congrArg Bucket.giveBack launched.bucket),?_,?_⟩
  · show (s.step (.acquire id false)).2.2.ops ++ (((s.step (.acquire id false)).2.1.step (.drop id)).2.2.ops ++ []) = _
    have first : (s.step (.acquire id false)).2.2.ops = _ := launched.ops
    have second : ((s.step (.acquire id false)).2.1.step (.drop id)).2.2.ops = _ := dropped.ops
    rw [first,second]
    rfl
  · intro other idle
    by_cases same : other = id
    · rw [same]
      exact idle_absent dropped.standing
    · intro due
      exact ((dropped.others other same).trans (launched.others other same)).trans_ne (idle due)

theorem cancelled_givenUp (idle : s.Idle id) :
    GivenUp s ready (s.ops (Abandonment.cancelled id).actions) (s.run (Abandonment.cancelled id).actions).2 := by
  have launched := launch_idle idle (.start .anyTime .given)
  rw [poll_abandoned booked early] at launched
  refine ⟨launched.now,launched.bucket,?_,?_⟩
  · show _ ++ [] = _
    rw [List.append_nil]
    exact launched.ops
  · intro other idle
    by_cases same : other = id
    · rw [same]
      exact idle_past launched.standing
    · intro due
      exact (launched.others other same).trans_ne (idle due)

theorem abandonment_givenUp (round : Abandonment) (idle : s.Idle round.id) :
    GivenUp s ready (s.ops round.actions) (s.run round.actions).2 := by
  cases round with
  | dropped id => exact dropped_givenUp booked early idle
  | cancelled id => exact cancelled_givenUp booked early idle

end Round

structure AllGivenUp (s : Session α) (ready : Nanos) (rounds : List Abandonment) (bucket : Bucket) : Prop where
  now : (s.run (rounds.flatMap Abandonment.actions)).2.now = s.now
  bucket : (s.run (rounds.flatMap Abandonment.actions)).2.regulator.bucket = bucket
  ops : s.ops (rounds.flatMap Abandonment.actions) = rounds.flatMap fun _ => [.reserve s.now .anyTime,.giveBack ready]

theorem allGivenUp_cons {round : Abandonment} {rest : List Abandonment} {bucket : Bucket}
    (one : GivenUp s ready (s.ops round.actions) (s.run round.actions).2)
    (all : AllGivenUp (s.run round.actions).2 ready rest bucket) : AllGivenUp s ready (round :: rest) bucket := by
  obtain ⟨now,final,ops⟩ := all
  rw [one.now] at now ops
  refine ⟨?_,?_,?_⟩
  · rw [List.flatMap_cons,run_state_append,now]
  · rw [List.flatMap_cons,run_state_append,final]
  · rw [List.flatMap_cons,ops_append,List.flatMap_cons,one.ops,ops]

theorem rounds_settled (settled : s.regulator.bucket.Settled s.now)
    (booked : (s.regulator.bucket.reserve s.now .anyTime).1 = .booked ready)
    (early : ¬ (ready ≤ s.now ∨ Nanos.Rung ready s.now)) (rounds : List Abandonment)
    (idle : ∀ round ∈ rounds, s.Idle round.id) : AllGivenUp s ready rounds s.regulator.bucket := by
  induction rounds generalizing s with
  | nil => exact ⟨rfl,rfl,rfl⟩
  | cons round rest ih =>
    have one := abandonment_givenUp booked early round (idle round List.mem_cons_self)
    have same : (s.run round.actions).2.regulator.bucket = s.regulator.bucket :=
      one.bucket.trans (settled.abandon booked)
    have later := fun other member => one.idle _ (idle other (List.mem_cons_of_mem round member))
    have all := ih (by rwa [same,one.now]) (by rwa [same,one.now]) (by rwa [one.now]) later
    rw [same] at all
    exact allGivenUp_cons one all

theorem rounds_givenUp {permits : Nat} (solvent : s.regulator.bucket.Solvent 0 permits)
    (past : s.regulator.bucket.refilled ≤ s.now) (booked : (s.regulator.bucket.reserve s.now .anyTime).1 = .booked ready)
    (waits : s.now < ready) (unrung : ¬ Nanos.Rung ready s.now) (first : Abandonment) (rest : List Abandonment)
    (idle : ∀ round ∈ first :: rest, s.Idle round.id) :
    AllGivenUp s ready (first :: rest) (s.regulator.bucket.reserve s.now .anyTime).2.giveBack := by
  have early : ¬ (ready ≤ s.now ∨ Nanos.Rung ready s.now) := not_or.mpr ⟨not_le.mpr waits,unrung⟩
  obtain ⟨settled,same⟩ := Bucket.abandon_settles solvent past booked waits
  have one := abandonment_givenUp booked early first (idle first List.mem_cons_self)
  have later := fun other member => one.idle _ (idle other (List.mem_cons_of_mem first member))
  have again : ((s.run first.actions).2.regulator.bucket.reserve (s.run first.actions).2.now .anyTime).1 = .booked ready := by
    rw [one.bucket,one.now,same .anyTime,booked]
  have all := rounds_settled (by rwa [one.bucket,one.now]) again (by rwa [one.now]) rest later
  rw [one.bucket] at all
  exact allGivenUp_cons one all

-- Whatever number of waits is begun and given up, the next caller is ready at the same instant. Only the first of them
-- may change the bucket.
theorem abandoned_waits_keep_queue (fresh : s.Fresh) (actions : List (Action α)) (rounds : List Abandonment) :
    let found := (s.run actions).2
    let left := fun done : List Abandonment => (found.run (done.flatMap Abandonment.actions)).2
    (found.regulator.bucket.reserve found.now .anyTime).1 = .booked ready → found.now < ready →
      ¬ Nanos.Rung ready found.now → (∀ round ∈ rounds, found.Idle round.id) →
      found.ops (rounds.flatMap Abandonment.actions) =
        (rounds.flatMap fun _ => [.reserve found.now .anyTime,.giveBack ready]) ∧
      (left rounds).now = found.now ∧
      (∀ terms : Terms, terms.Accept ready →
        ((left rounds).regulator.bucket.reserve found.now terms).1 = .booked ready) ∧
      ∀ before round after, rounds = before ++ round :: after → before ≠ [] →
        (left (before ++ [round])).regulator.bucket = (left before).regulator.bucket := by
  intro found left booked waits unrung idle
  obtain ⟨permits,solvent⟩ := run_solvent fresh actions
  have past : found.regulator.bucket.refilled ≤ found.now := run_past fresh actions
  have several := rounds_givenUp solvent past booked waits unrung
  have refilled : ∀ terms : Terms, terms.Accept ready →
      (found.regulator.bucket.reserve found.now terms).1 = .booked ready := by
    intro terms accepted
    rw [Bucket.reserve_ready (Bucket.reserve_booking booked).1 accepted]
  have steady : ∀ before round after, rounds = before ++ round :: after → before ≠ [] →
      (left (before ++ [round])).regulator.bucket = (left before).regulator.bucket := by
    rintro before round after rfl some
    obtain ⟨first,rest,rfl⟩ := List.exists_cons_of_ne_nil some
    have fewer := fun other member => idle other (List.mem_append_left _ member)
    have one : ∀ other ∈ first :: (rest ++ [round]), found.Idle other.id := by
      intro other member
      rw [List.append_cons] at idle
      exact idle other (List.mem_append_left after member)
    exact (several first (rest ++ [round]) one).bucket.trans (several first rest fewer).bucket.symm
  cases rounds with
  | nil => exact ⟨rfl,rfl,refilled,steady⟩
  | cons first rest =>
    obtain ⟨now,bucket,ops⟩ := several first rest idle
    refine ⟨ops,now,?_,steady⟩
    intro terms accepted
    show ((left (first :: rest)).regulator.bucket.reserve found.now terms).1 = _
    rw [bucket,(Bucket.abandon_settles solvent past booked waits).2]
    exact refilled terms accepted

-- The first of four waits that are given up has cost the balance its last bits.
theorem abandoned_waits_keep_queue_third :
    let opened : Session Unit := ⟨0,⟨1 / 3,1 / 3,1 / 3,none,⟨1 / 3,0,1,0⟩⟩,.of .default,[],[],0,0⟩
    let found := (opened.run [.tryAcquire,.advance 100000000]).2
    let rounds : List Abandonment := [.dropped 0,.cancelled 1,.dropped 1,.cancelled 1]
    let left := (found.run (rounds.flatMap Abandonment.actions)).2
    (found.regulator.bucket.reserve found.now .anyTime).1 = .booked 3000000000 ∧
    (found.run (Abandonment.dropped 0).actions).2.regulator.bucket.balance <
      (found.regulator.bucket.refill found.now).balance ∧
    (left.regulator.bucket.reserve found.now .anyTime).1 = .booked 3000000000 := by
  intro opened found rounds left
  have fresh : opened.Fresh := ⟨rfl,1 / 3,0,Bucket.new_usable (by decide +kernel) (by decide +kernel)⟩
  have booked : (found.regulator.bucket.reserve found.now .anyTime).1 = .booked 3000000000 := by decide +kernel
  have absent : ∀ round ∈ rounds, found.standing round.id = none := by decide +kernel
  have idle := fun round member => idle_absent (absent round member)
  have kept := abandoned_waits_keep_queue fresh [.tryAcquire,.advance 100000000] rounds booked (by decide +kernel)
    (by decide +kernel) idle
  exact ⟨booked,by decide +kernel,kept.2.2.1 .anyTime trivial⟩

end Session
end LoadPacing
