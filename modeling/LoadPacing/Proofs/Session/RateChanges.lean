import LoadPacing.Proofs.Bucket.Retuning
import LoadPacing.Proofs.Session.Frame
import LoadPacing.Proofs.Session.Waits

-- The permits that are there right before a change of the rate and right after it.
namespace LoadPacing.Session
variable {s : Session α} {rate : Binary64}

theorem drain_serves (most taken : Nat) (s : Session α) :
    (drain most taken s).1 = some (taken + most) ↔ s.regulator.bucket.Serves s.now most := by
  induction most generalizing taken s with
  | zero => exact ⟨fun _ => trivial,fun _ => rfl⟩
  | succ most ih =>
    have later := ih (taken + 1) s.tryAcquire.2.1
    have total : taken + 1 + most = taken + (most + 1) := by lia
    rw [total] at later
    unfold drain Bucket.Serves
    unfold tryAcquire at later ⊢
    generalize s.regulator.bucket.reserve s.now (.by s.now) = reserved at later ⊢
    obtain ⟨booking,bucket⟩ := reserved
    cases booking with
    | booked ready =>
      exact ⟨fun counted => ⟨⟨ready,rfl⟩,later.mp counted⟩,fun serves => later.mpr serves.2⟩
    | refused =>
      have fewer : some taken ≠ some (taken + (most + 1)) := by simp
      refine ⟨fun counted => absurd counted fewer,?_⟩
      rintro ⟨⟨_,booked⟩,_⟩
      cases booked
    | overflow =>
      constructor
      · intro counted
        cases counted
      · rintro ⟨⟨_,booked⟩,_⟩
        cases booked

theorem step_drain_count (s : Session α) (most count : Nat) :
    (s.step (.drain most)).1 = .count count ↔ (drain most 0 s).1 = some count := by
  unfold step
  dsimp only
  split <;> (rename_i eq; rw [eq]; simp)

theorem step_drain_serves (s : Session α) (most : Nat) :
    (s.step (.drain most)).1 = .count most ↔ s.regulator.bucket.Serves s.now most := by
  have counted := drain_serves most 0 s
  rw [Nat.zero_add] at counted
  rw [step_drain_count,counted]

theorem retuning_step {change : Action α} (told : (s.step change).2.2.ops = [.retune rate]) :
    (s.step change).2.1.now = s.now ∧ (s.step change).2.1.regulator.bucket = s.regulator.bucket.retune rate := by
  have bucket := (s.step_keeps change).bucket
  rw [told] at bucket
  refine ⟨s.step_still change ?_ ?_,bucket⟩
  · rintro duration rfl
    cases told
  · rintro rfl
    have reserved : (s.step .acquireAwait).2.2.ops = [.reserve s.now .anyTime] := by
      unfold step acquireAwait
      dsimp only
      split
      · split <;> rfl
      · rfl
    rw [reserved] at told
    cases told

-- A refill credits all the time since the last one at the rate of the moment, so a higher rate must find none left.
theorem rate_change_prospective (fresh : s.Fresh) (actions : List (Action α)) (change : Action α) :
    let found := (s.run actions).2
    let changed := (found.step change).2.1
    (found.step change).2.2.ops = [.retune rate] →
      rate ≤ found.regulator.bucket.rate ∨ found.regulator.bucket.Credited found.now rate →
      (∀ permits, (changed.step (.drain permits)).1 = .count permits → (found.step (.drain permits)).1 = .count permits) ∧
      (changed.regulator.bucket.refill found.now).balance ≤ (found.regulator.bucket.refill found.now).balance := by
  intro found changed told spent
  obtain ⟨permits,solvent⟩ := run_solvent fresh actions
  have number : found.regulator.bucket.balance ≠ .nan := (Binary64.number_of_le solvent.short).2
  have stores : 0 ≤ found.regulator.bucket.burst := run_stores fresh actions
  obtain ⟨now,bucket⟩ := retuning_step told
  obtain ⟨serves,balance⟩ := Bucket.retune_prospective solvent.flows stores number spent
  refine ⟨?_,?_⟩
  · intro permits counted
    rw [step_drain_serves] at counted ⊢
    rw [now,bucket] at counted
    exact serves permits counted
  · rw [bucket]
    exact balance

theorem rate_change_prospective_thousand :
    let opened : Session Unit := ⟨0,⟨2,2,2,none,⟨2,2,1,0⟩⟩,.of .default,[],[],0,0⟩
    let found := (opened.run [.advance 1000000000,.tryAcquire]).2
    let changed := (found.step (.setRate 1000)).2.1
    found.regulator.bucket.Credited found.now 1000 ∧
    (changed.step (.drain 2)).1 = .count 2 ∧ (found.step (.drain 2)).1 = .count 2 := by
  intro opened found changed
  have fresh : opened.Fresh := ⟨rfl,2,2,Bucket.new_usable (by decide +kernel) (by decide +kernel)⟩
  have credited : found.regulator.bucket.Credited found.now 1000 :=
    ⟨by decide +kernel,by decide +kernel,by decide +kernel⟩
  have told : (found.step (.setRate 1000)).2.2.ops = [.retune 1000] := by decide +kernel
  have prospective := rate_change_prospective fresh [.advance 1000000000,.tryAcquire] (.setRate 1000) told (.inr credited)
  have counted : (changed.step (.drain 2)).1 = .count 2 := by
    rw [step_drain_count]
    decide +kernel
  exact ⟨credited,counted,prospective.1 2 counted⟩

-- Half a second of idle time is half a permit at one a second, and a whole one after the rate was doubled.
theorem rate_change_backdated :
    ∃ opened : Session Unit, gate 1 0 = .ok opened ∧
      let found := (opened.run [.tryAcquire,.advance 500000000]).2
      (found.step (.drain 1)).1 = .count 0 ∧ ((found.step (.setRate 2)).2.1.step (.drain 1)).1 = .count 1 := by
  let opened : Session Unit := ⟨0,⟨1,1,1,none,⟨1,0,1,0⟩⟩,.of .default,[],[],0,0⟩
  refine ⟨opened,gate_opened (by decide +kernel) (by decide +kernel),?_⟩
  intro found
  rw [step_drain_count,step_drain_count]
  decide +kernel

end LoadPacing.Session
