import LoadPacing.Proofs.Bucket.Admission
import LoadPacing.Proofs.Session.Books

namespace LoadPacing.Session
variable {s : Session α}

theorem fresh_covered (fresh : s.Fresh) (slow : s.regulator.bucket.rate.value ≤ R) :
    Bucket.Covered R s.now s.regulator.bucket [] := by
  obtain ⟨_,rate,burst,made⟩ := fresh
  exact Bucket.covered_new made slow

-- The permits that are out and due by an instant are no more than the first one and what R brings by then and half a
-- nanosecond, as long as nothing is rounded but waits to whole nanoseconds.
theorem admission_bounded (fresh : s.Fresh) (actions : List (Action α)) (R : ℚ)
    (unrounded : s.regulator.bucket.ExactRun (s.ops actions))
    (slow : ∀ bucket ∈ s.regulator.bucket.trail (s.ops actions), bucket.rate.value ≤ R) :
    s.regulator.bucket.Orderly [] (s.ops actions) ∧
    ∀ elapsed : Nanos,
      ((s.regulator.bucket.ledger [] (s.ops actions)).countP (· ≤ s.now + elapsed) : ℚ) ≤
        1 + R * (((elapsed : ℚ) + 1 / 2) / 10 ^ 9) := by
  obtain ⟨orderly,_⟩ := (s.run_keeps actions).books _ _ (fresh_books fresh)
  have first : s.regulator.bucket ∈ s.regulator.bucket.trail (s.ops actions) := by
    cases s.ops actions <;> exact List.mem_cons_self
  have covered := fresh_covered fresh (slow _ first)
  exact ⟨orderly,(Bucket.covered_run _ covered orderly unrounded slow).due⟩

-- A pending wait is given up, and the rate is doubled under another one.
theorem admission_bounded_doubled_rate :
    let opened : Session Unit := ⟨0,⟨1,1,1,none,⟨1,1,1,0⟩⟩,.of .default,[],[],0,0⟩
    let actions : List (Action Unit) :=
      [.acquire 0 false,.acquire 1 false,.advance (Nanos.perSecond / 2),.setRate 2,.drop 1,
        .tryAcquire,.acquire 2 false]
    opened.regulator.bucket.ledger [] (opened.ops actions) =
      [Nanos.perSecond,Nanos.perSecond / 2,0] ∧
    ((opened.regulator.bucket.ledger [] (opened.ops actions)).countP (· ≤ opened.now + Nanos.perSecond) : ℚ) ≤
      1 + 2 * (((Nanos.perSecond : ℚ) + 1 / 2) / 10 ^ 9) := by
  intro opened actions
  have fresh : opened.Fresh :=
    ⟨rfl,1,1,Bucket.new_usable (by decide +kernel) (by decide +kernel)⟩
  have unrounded : opened.regulator.bucket.ExactRun (opened.ops actions) := by decide +kernel
  have slow : ∀ bucket ∈ opened.regulator.bucket.trail (opened.ops actions), bucket.rate.value ≤ 2 := by
    decide +kernel
  exact ⟨by decide +kernel,(admission_bounded fresh actions 2 unrounded slow).2 Nanos.perSecond⟩

end LoadPacing.Session
