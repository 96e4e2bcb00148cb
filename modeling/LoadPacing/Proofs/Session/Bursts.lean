import LoadPacing.Proofs.Bucket.Bursts
import LoadPacing.Proofs.Session.RateChanges
import LoadPacing.Proofs.Session.Refusals

-- How many attempts on the spot are granted at one instant, one by one or in a drain.
namespace LoadPacing.Session
variable {s : Session α} {last : Booking} {permits : Nat}

theorem drain_lasts (most taken : Nat) (s : Session α) (lasts : s.regulator.bucket.Lasts s.now last permits)
    (unbooked : last.permits = 0) :
    (drain most taken s).2.2.passed = min most permits ∧
      (last = .refused → (drain most taken s).1 = some (taken + min most permits)) := by
  induction most generalizing taken s permits with
  | zero =>
    rw [Nat.zero_min]
    exact ⟨rfl,fun _ => rfl⟩
  | succ most ih =>
    have later := fun permits => @ih permits (taken + 1) s.tryAcquire.2.1
    unfold drain
    unfold tryAcquire at later ⊢
    cases permits with
    | zero =>
      have told : (s.regulator.bucket.reserve s.now (.by s.now)).1 = last := lasts
      generalize s.regulator.bucket.reserve s.now (.by s.now) = reserved at told ⊢
      obtain ⟨booking,bucket⟩ := reserved
      cases told
      cases booking with
      | booked ready => cases unbooked
      | refused => exact ⟨rfl,fun _ => rfl⟩
      | overflow =>
        refine ⟨rfl,?_⟩
        intro lost
        cases lost
    | succ permits =>
      obtain ⟨granted,rest⟩ := lasts
      have after := later permits rest
      generalize s.regulator.bucket.reserve s.now (.by s.now) = reserved at granted after ⊢
      obtain ⟨booking,bucket⟩ := reserved
      cases booking with
      | refused | overflow => cases granted
      | booked ready =>
        obtain ⟨passed,counted⟩ := after
        have total : min (most + 1) (permits + 1) = 1 + min most permits := by omega
        rw [total]
        refine ⟨congrArg (1 + ·) passed,fun refused => (counted refused).trans ?_⟩
        rw [Nat.add_assoc]

theorem attempt_after (flows : s.regulator.bucket.rate.Positive) (past : s.regulator.bucket.refilled ≤ s.now)
    (lasts : s.regulator.bucket.Lasts s.now last permits) (unbooked : last.permits = 0) {steps : List (Action α)}
    {attempts : Nat} (still : (s.run steps).2.now = s.now)
    (only : s.ops steps = List.replicate attempts (.reserve s.now (.by s.now))) :
    let later := (s.run steps).2
    let next := later.step .tryAcquire
    (attempts < permits → next.1 = .flag true) ∧
    (permits ≤ attempts → (next.1 = .flag false ∨ next.1 = .progress .overflow) ∧
      (last = .refused → next.1 = .flag false) ∧
      (0 < attempts → next.2.1.regulator.bucket = later.regulator.bucket)) := by
  intro later next
  have bucket : later.regulator.bucket = s.regulator.bucket.run (s.ops steps) := (s.run_keeps steps).bucket
  rw [only] at bucket
  have left := Bucket.lasts_run flows lasts unbooked attempts
  rw [← bucket] at left
  have clock : later.now = s.now := still
  obtain ⟨answer,after⟩ := later.tried
  rw [clock] at answer after
  refine ⟨fun before => ?_,fun spent => ?_⟩
  · obtain ⟨rest,some⟩ := Nat.exists_eq_add_of_lt before
    have more : permits - attempts = rest + 1 := by omega
    rw [more] at left
    have granted := left.1
    cases booking : (later.regulator.bucket.reserve s.now (.by s.now)).1 with
    | booked ready =>
      rw [booking] at answer
      exact answer
    | refused | overflow =>
      rw [booking] at granted
      cases granted
  · rw [Nat.sub_eq_zero_of_le spent] at left
    have told : (later.regulator.bucket.reserve s.now (.by s.now)).1 = last := left
    rw [told] at answer
    refine ⟨?_,?_,fun some => ?_⟩
    · cases last with
      | booked ready => cases unbooked
      | refused => exact .inl answer
      | overflow => exact .inr answer
    · rintro rfl
      exact answer
    · have refilled : later.regulator.bucket.refill s.now = later.regulator.bucket := by
        rw [bucket]
        exact (Bucket.run_stills flows past some).refill
      refine after.trans ?_
      rw [Bucket.reserve_unbooked (by rw [told,unbooked]),refilled]

theorem fresh_burst (fresh : s.Fresh) : s.regulator.bucket.burst.IsFinite := by
  obtain ⟨_,rate,burst,made⟩ := fresh
  obtain ⟨_,finite,_,opened⟩ := Bucket.new_ok made
  rw [opened]
  exact finite

-- Whole permits are granted, one more if the rest of one is due at once, and all other attempts at that instant are
-- refused. Only in the last 2 * 10^9 seconds of the clock may they overflow instead.
theorem burst_whole_permits (fresh : s.Fresh) (actions : List (Action α)) (T : ℚ) :
    let found := (s.run actions).2
    let gate := found.regulator.bucket.refill found.now
    gate.balance.Yields T → T ≤ 2 ^ 53 → 1 / 10 ^ 9 ≤ gate.rate.value → gate.rate.value ≤ 10 ^ 9 →
    ∃ permits : Nat, ⌊T⌋₊ ≤ permits ∧ permits ≤ ⌈T⌉₊ ∧ permits ≤ ⌊max 1 (gate.burst.value * gate.rate.value)⌋₊ + 1 ∧
      (∀ steps attempts, (found.run steps).2.now = found.now →
        found.ops steps = List.replicate attempts (.reserve found.now (.by found.now)) →
        let later := (found.run steps).2
        let next := later.step .tryAcquire
        (attempts < permits → next.1 = .flag true) ∧
        (permits ≤ attempts → (next.1 = .flag false ∨ next.1 = .progress .overflow) ∧
          (0 ≤ T → found.now + 2 * 10 ^ 9 * Nanos.perSecond < Nanos.horizon → next.1 = .flag false) ∧
          (0 < attempts → next.2.1.regulator.bucket = later.regulator.bucket))) ∧
      ∀ most, (found.step (.drain most)).2.2.passed = min most permits ∧
        (0 ≤ T → found.now + 2 * 10 ^ 9 * Nanos.perSecond < Nanos.horizon →
          (found.step (.drain most)).1 = .count (min most permits)) := by
  intro found gate balance small slow fast
  obtain ⟨finite,rfl⟩ := balance
  obtain ⟨_,solvent⟩ := run_solvent fresh actions
  have flows : found.regulator.bucket.rate.Positive := solvent.flows
  have past : found.regulator.bucket.refilled ≤ found.now := run_past fresh actions
  have burst : gate.burst.IsFinite := by
    show found.regulator.bucket.burst.IsFinite
    rw [(s.run_keeps actions).bucket,Bucket.run_burst]
    exact fresh_burst fresh
  have still : gate.Still found.now := Bucket.refill_stills flows past
  obtain ⟨permits,last,lasts,unbooked,least,most,refused⟩ :=
    Bucket.whole_burst still fast slow finite small _ (Nat.le_ceil _)
  have found_lasts := Bucket.lasts_refilled flows lasts
  have stored := Bucket.stored_whole still.flows burst still.stored finite small
  refine ⟨permits,least,most,most.trans stored,?_,?_⟩
  · intro steps attempts clock only
    obtain ⟨granted,spent⟩ := attempt_after flows past found_lasts unbooked clock only
    refine ⟨granted,fun none => ?_⟩
    obtain ⟨never,told,same⟩ := spent none
    exact ⟨never,fun covered early => told (refused covered early),same⟩
  · intro count
    obtain ⟨passed,counted⟩ := drain_lasts count 0 found found_lasts unbooked
    refine ⟨by rw [step_drain_rest]; exact passed,fun covered early => ?_⟩
    have taken := counted (refused covered early)
    rw [Nat.zero_add] at taken
    exact (step_drain_count found count _).mpr taken

-- At 10^9 permits a second the wait for a quarter of a permit rounds to nothing.
theorem burst_whole_permits_on_credit :
    let opened : Session Unit := ⟨0,⟨250000000,250000000,250000000,none,⟨250000000,1,1,0⟩⟩,.of .default,[],[],0,0⟩
    let found := (opened.run [.advance 7,.tryAcquire,.setRate 1000000000]).2
    let later := (found.run [.tryAcquire,.stats,.tryAcquire]).2
    (found.regulator.bucket.refill found.now).balance.Yields (7 / 4) ∧ (found.step (.drain 5)).1 = .count 2 ∧
    (later.step .tryAcquire).1 = .flag false ∧ (later.step .tryAcquire).2.1.regulator.bucket = later.regulator.bucket := by
  intro opened found later
  have fresh : opened.Fresh := ⟨rfl,250000000,1,Bucket.new_usable (by decide +kernel) (by decide +kernel)⟩
  have balance : (found.regulator.bucket.refill found.now).balance.Yields (7 / 4) := by decide +kernel
  obtain ⟨permits,_,_,_,attempts,drains⟩ := burst_whole_permits fresh
    [.advance 7,.tryAcquire,.setRate 1000000000] (7 / 4) balance (by norm_num) (by decide +kernel) (by decide +kernel)
  obtain ⟨passed,counted⟩ := drains 5
  have two : min 5 permits = 2 := by
    rw [← passed,step_drain_rest]
    decide +kernel
  have some : permits = 2 := by omega
  subst some
  have early : found.now + 2 * 10 ^ 9 * Nanos.perSecond < Nanos.horizon := by decide +kernel
  have only : found.ops [.tryAcquire,.stats,.tryAcquire] = List.replicate 2 (.reserve found.now (.by found.now)) := by
    decide +kernel
  obtain ⟨_,spent⟩ := attempts [.tryAcquire,.stats,.tryAcquire] 2 (by decide +kernel) only
  obtain ⟨_,refused,same⟩ := spent (Nat.le_refl _)
  exact ⟨balance,counted (by norm_num) early,refused (by norm_num) early,same (by norm_num)⟩

-- The wait for a second permit is past the end of the clock, so the attempt is lost.
theorem clock_end_refuses_none :
    ∃ opened : Session Unit, gate (Binary64.ofDecimal false 1 (-9)) 0 = .ok opened ∧
      let found := (opened.run [.advance (Nanos.horizon - 970000000 * Nanos.perSecond)]).2
      let gate := found.regulator.bucket.refill found.now
      gate.balance.Yields 1 ∧ 1 / 10 ^ 9 ≤ gate.rate.value ∧ gate.rate.value ≤ 10 ^ 9 ∧
      (found.step .tryAcquire).1 = .flag true ∧
      ((found.run [.tryAcquire]).2.step .tryAcquire).1 = .progress .overflow := by
  let slow := Binary64.ofDecimal false 1 (-9)
  let opened : Session Unit := ⟨0,⟨slow,slow,slow,none,⟨slow,0,1,0⟩⟩,.of .default,[],[],0,0⟩
  refine ⟨opened,gate_opened (by decide +kernel) (by decide +kernel),?_⟩
  intro found gate
  let next := (found.run [.tryAcquire]).2
  have booked : (found.regulator.bucket.reserve found.now (.by found.now)).1 = .booked found.now := by decide +kernel
  have lost : (next.regulator.bucket.reserve next.now (.by next.now)).1 = .overflow := by decide +kernel
  refine ⟨by decide +kernel,by decide +kernel,by decide +kernel,?_,?_⟩
  · rw [found.tried.1,booked]
  · show (next.step .tryAcquire).1 = _
    rw [next.tried.1,lost]

end LoadPacing.Session
