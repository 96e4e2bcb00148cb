import LoadPacing.Proofs.Bucket.Tickets
import LoadPacing.Proofs.Session.Books

namespace LoadPacing.Session
variable {s : Session α}

-- The counter starts with one ticket valid at once, and what it refuses leaves no mark. As long as no permit is
-- given back, waiting ones lie one interval of the rate apart, to the nanosecond.
theorem gate_follows_tickets (fresh : s.Fresh) (actions : List (Action α))
    (exact : s.regulator.bucket.CapacityExact) (unrounded : s.regulator.bucket.ExactRun (s.ops actions))
    (steady : ∀ passed ∈ s.regulator.bucket.trail (s.ops actions), passed.rate = s.regulator.bucket.rate) :
    let bucket := s.regulator.bucket
    let ops := s.ops actions
    let opened := Tickets.opened bucket.rate.value bucket.burst.value s.now
    bucket.diary ops = opened.diary ops ∧ (opened.run ops).Tracks (s.run actions).2.regulator.bucket ∧
    (∀ before now terms after, ops = before ++ .reserve now terms :: after →
      ((opened.run before).reserve now terms).1.permits = 0 →
      bucket.diary ops =
        opened.diary before ++ (now,((opened.run before).reserve now terms).1) :: (opened.run before).diary after) ∧
    (Bucket.givenBack ops = 0 →
      ((grants (bucket.diary ops)).Pairwise fun x y => x.ready ≤ y.ready) ∧
      ∀ before first between last after,
        grants (bucket.diary ops) = before ++ first :: (between ++ last :: after) →
        first.Waits → (∀ g ∈ between, g.Waits) → last.Waits →
        |((last.ready : ℚ) - first.ready) - (between.length + 1) * (10 ^ 9 / bucket.rate.value)| ≤ 1) := by
  intro bucket ops opened
  obtain ⟨_,rate,burst,made⟩ := id fresh
  have begins : opened.Tracks bucket := Tickets.opened_tracks made exact
  obtain ⟨orderly,_⟩ := (s.run_keeps actions).books _ _ (fresh_books fresh)
  obtain ⟨same,ended⟩ := begins.run ops orderly unrounded steady
  rw [same,(s.run_keeps actions).bucket]
  refine ⟨rfl,ended,?_,?_⟩
  · intro before now terms after split none
    rw [split]
    exact opened.diary_unbooked before after none
  · intro kept
    have forward := bucket.orderly_forward ops orderly
    refine ⟨Tickets.grants_ordered begins.interval_pos forward kept,?_⟩
    intro before first between last after split firstWaits wait lastWaits
    have apart := Tickets.grants_spaced begins.interval_pos begins.slack_nonneg kept split firstWaits wait lastWaits
    rwa [begins.interval] at apart

-- In the first run a permit is given up, and three seconds later four are there and no fifth.
theorem gate_follows_tickets_four_stored :
    let opened : Session Unit := ⟨0,⟨4,4,4,none,⟨4,1,1,0⟩⟩,.of .default,[],[],0,0⟩
    let given : List (Action Unit) :=
      [.acquire 0 false,.acquire 1 false,.acquireBefore 2 100 false,.drop 1,.advance (3 * Nanos.perSecond),.drain 5]
    let kept : List (Action Unit) := [.acquire 0 false,.acquire 1 false,.acquire 2 false,.acquire 3 false]
    (Tickets.opened 4 1 0).diary (opened.ops given) =
      [(0,.booked 0),(0,.booked 250000000),(0,.refused),(3000000000,.booked 3000000000),
        (3000000000,.booked 3000000000),(3000000000,.booked 3000000000),(3000000000,.booked 3000000000),
        (3000000000,.refused)] ∧
    opened.regulator.bucket.diary (opened.ops given) =
      (Tickets.opened (4 : Binary64).value (1 : Binary64).value 0).diary (opened.ops given) ∧
    grants (opened.regulator.bucket.diary (opened.ops kept)) =
      [⟨0,0⟩,⟨0,250000000⟩,⟨0,500000000⟩,⟨0,750000000⟩] ∧
    |(((750000000 : Nanos) : ℚ) - (250000000 : Nanos)) - (([⟨0,500000000⟩] : List Grant).length + 1) *
      (10 ^ 9 / (4 : Binary64).value)| ≤ 1 := by
  intro opened given kept
  have fresh : opened.Fresh :=
    ⟨rfl,4,1,Bucket.new_usable (by decide +kernel) (by decide +kernel)⟩
  have exact : opened.regulator.bucket.CapacityExact := by decide +kernel
  have follows := gate_follows_tickets fresh given exact (by decide +kernel) (by decide +kernel)
  have waiting : grants (opened.regulator.bucket.diary (opened.ops kept)) =
      [⟨0,0⟩,⟨0,250000000⟩,⟨0,500000000⟩,⟨0,750000000⟩] := by decide +kernel
  have spaced := (gate_follows_tickets fresh kept exact (by decide +kernel) (by decide +kernel)).2.2.2 (by decide +kernel)
  exact ⟨by decide +kernel,follows.1,waiting,
    spaced.2 [⟨0,0⟩] ⟨0,250000000⟩ [⟨0,500000000⟩] ⟨0,750000000⟩ [] waiting (by decide +kernel)
      (by decide +kernel) (by decide +kernel)⟩

end LoadPacing.Session
