import LoadPacing.Proofs.Bucket.Waiting
import LoadPacing.Proofs.Session.Books

namespace LoadPacing.Session
variable {s : Session α}

theorem fresh_solvent (fresh : s.Fresh) : s.regulator.bucket.Solvent 0 0 := by
  obtain ⟨_,_,_,made⟩ := fresh
  exact Bucket.new_solvent made

theorem run_solvent (fresh : s.Fresh) (actions : List (Action α)) :
    ∃ permits, (s.run actions).2.regulator.bucket.Solvent 0 permits := by
  obtain ⟨_,_,_,made⟩ := fresh
  rw [(s.run_keeps actions).bucket]
  exact Bucket.run_solvent made _

theorem run_stores (fresh : s.Fresh) (actions : List (Action α)) : 0 ≤ (s.run actions).2.regulator.bucket.burst := by
  obtain ⟨_,rate,burst,made⟩ := fresh
  obtain ⟨_,_,stores,opened⟩ := Bucket.new_ok made
  rw [(s.run_keeps actions).bucket,Bucket.run_burst,opened]
  exact stores

theorem run_past (fresh : s.Fresh) (actions : List (Action α)) :
    (s.run actions).2.regulator.bucket.refilled ≤ (s.run actions).2.now := by
  obtain ⟨_,_,_,books⟩ := (s.run_keeps actions).books _ _ (fresh_books fresh)
  exact books.past

-- Of two permits the one that is booked first is ready no later. A raised rate may let a later wait overtake, and so
-- may rounding once it is worth a permit.
theorem served_in_order (fresh : s.Fresh) (actions : List (Action α)) {before between after : List Bucket.Op}
    {first second : Nanos} {terms others : Terms} (ready last : Nanos) (debt : Nat)
    (split : s.ops actions = before ++ .reserve first terms :: (between ++ .reserve second others :: after)) :
    let found := s.regulator.bucket.run before
    let left := (found.reserve first terms).2
    (found.reserve first terms).1 = .booked ready → ((left.run between).reserve second others).1 = .booked last →
      Bucket.givenBack between = 0 → (∀ passed ∈ left.trail between, passed.rate ≤ found.rate) →
      1 - left.balance.value ≤ debt → ((left.diary between).length + 3) * (debt + left.taken between + 2) ≤ 2 ^ 49 →
      ready ≤ last := by
  intro found left booked later kept slow owes few
  obtain ⟨orderly,_⟩ := (s.run_keeps actions).books _ _ (fresh_books fresh)
  rw [split] at orderly
  have solvent := Bucket.solvent_run before (fresh_solvent fresh) fun _ _ flows => (Binary64.positive_value flows).le
  exact Bucket.booked_in_order solvent ((Bucket.orderly_append _ _ _ _).mp orderly).2 booked later kept slow owes few

theorem served_in_order_slower_rate :
    let opened : Session Unit := ⟨0,⟨4,4,4,none,⟨4,0,1,0⟩⟩,.of .default,[],[],0,0⟩
    let actions : List (Action Unit) :=
      [.tryAcquire,.acquire 0 false,.acquire 1 false,.setRate 2,.advance 100,.tryAcquire,.setRate 3,.acquire 2 false]
    opened.regulator.bucket.diary (opened.ops actions) =
      [(0,.booked 0),(0,.booked 250000000),(0,.booked 500000000),(100,.refused),(100,.booked 1000000033)] ∧
    (500000000 : Nanos) ≤ 1000000033 := by
  intro opened actions
  have fresh : opened.Fresh := ⟨rfl,4,0,Bucket.new_usable (by decide +kernel) (by decide +kernel)⟩
  have split : opened.ops actions = [.reserve 0 (.by 0),.reserve 0 .anyTime] ++ .reserve 0 .anyTime ::
      ([.retune 2,.reserve 100 (.by 100),.retune 3] ++ .reserve 100 .anyTime :: []) := by decide +kernel
  have served := served_in_order fresh actions 500000000 1000000033 3 split
  exact ⟨by decide +kernel,served (by decide +kernel) (by decide +kernel) (by decide +kernel) (by decide +kernel)
    (by decide +kernel) (by decide +kernel)⟩

-- Without the condition on the rate a later wait may be due first.
theorem raised_rate_overtakes :
    ∃ opened : Session Unit, gate 1 0 = .ok opened ∧
      let ops := opened.ops [.tryAcquire,.acquire 0 false,.setRate 1000,.acquire 1 false]
      Bucket.givenBack ops = 0 ∧
      opened.regulator.bucket.diary ops = [(0,.booked 0),(0,.booked 1000000000),(0,.booked 2000000)] := by
  let opened : Session Unit := ⟨0,⟨1,1,1,none,⟨1,0,1,0⟩⟩,.of .default,[],[],0,0⟩
  have made : (Bucket.new 1 0 0) = .ok ⟨1,0,1,0⟩ := Bucket.new_usable (by decide +kernel) (by decide +kernel)
  have gated : gate 1 0 = .ok opened := by
    unfold gate
    rw [made]
  exact ⟨opened,gated,by decide +kernel,by decide +kernel⟩

end LoadPacing.Session
