import LoadPacing.Proofs.Session.Moves

-- Permits that are let through on the spot, without a handle: how many an answer tells of.
namespace LoadPacing.Session

def onSpot (passed : Nat) : Action α → Answer α → Nat
  | .tryAcquire, .flag true | .acquireAwait, .progress .ready => 1
  | .drain _, .count taken => taken
  -- A wait overflowed, and the answer does not tell what was taken before.
  | .drain _, _ => passed
  | _, _ => 0

def atOnceOf (s : Session α) (action : Action α) : Nat :=
  onSpot (s.step action).2.2.passed action (s.step action).1

def atOnce (s : Session α) : List (Action α) → Nat
  | [] => 0
  | action :: rest => s.atOnceOf action + (s.step action).2.1.atOnce rest

theorem tryAcquire_passed (s : Session α) : s.tryAcquire.2.2.passed = s.tryAcquire.1.permits := rfl

theorem drain_passed (most taken : Nat) (s : Session α) :
    ∀ count, (drain most taken s).1 = some count → count = taken + (drain most taken s).2.2.passed := by
  refine drain_induct (P := fun taken _ drained => ∀ count, drained.1 = some count → count = taken + drained.2.2.passed)
    ?_ ?_ ?_ ?_ most taken s
  · exact fun _ _ _ told => (Option.some.inj told).symm
  · intro taken s refused count told
    rw [← Option.some.inj told,tryAcquire_passed,refused]
    rfl
  · exact fun _ _ _ _ told => absurd told (Option.some_ne_none _).symm
  · intro taken s ready later booked counted count told
    have one : s.tryAcquire.2.2.passed = 1 := by rw [tryAcquire_passed,booked]; rfl
    rw [Trace.append_passed,one,counted count told,Nat.add_assoc]

theorem readItem_passed (s : Session α) (id : Nat) : (s.readItem id).2.2.passed = 0 := by
  unfold readItem
  split
  · rfl
  · dsimp only
    split <;> rfl
  · rfl

theorem readItems_passed (fuel id : Nat) (s : Session α) : (readItems fuel id s).2.2.passed = 0 :=
  (readItems_reads fuel id s).leaves (P := fun trace => trace.passed = 0) rfl
    (fun one two => by rw [Trace.append_passed,one,two]) fun | .mk _ => readItem_passed _ id

theorem atOnceOf_aside (s : Session α) (action : Action α) (turn : s.turn action = .aside) :
    s.atOnceOf action = (s.step action).2.2.passed := by
  unfold atOnceOf
  cases action with
  | tryAcquire =>
    have tried := s.tryAcquire_passed
    unfold step
    dsimp only
    split <;> (rename_i eq; rw [eq] at tried; exact tried.symm)
  | drain most =>
    have drained := drain_passed most 0 s
    unfold step
    dsimp only
    split
    · rename_i count after trace eq
      rw [eq] at drained
      exact (drained count rfl).trans (Nat.zero_add _)
    · rfl
  | acquireAwait =>
    unfold step acquireAwait
    dsimp only
    split
    · split <;> rfl
    · rfl
  | call id number plan unpolled =>
    unfold step call
    unfold Session.turn at turn
    dsimp only at turn ⊢
    split
    · rfl
    · rename_i service found
      rw [found] at turn
      have same : s.createBackend.2.now = s.now := rfl
      rw [same]
      cases deadline : service.deadline s.now with
      | none => rfl
      | some terms => simp [deadline] at turn
  | next id =>
    have quiet := s.readItem_passed id
    unfold step
    dsimp only
    split <;> (rename_i eq; rw [eq] at quiet; exact quiet.symm)
  | collect id =>
    have quiet := readItems_passed (s.scriptLength id + 1) id s
    unfold step
    dsimp only
    split <;> (rename_i eq; rw [eq] at quiet; exact quiet.symm)
  | acquire | acquireBefore | acquireCancellable | poll | drop => cases turn
  | advance | setRate | cancel | contains | stats | layer => rfl
  | observe | observeDeadline | instanceOf | clone | shareService | shareLayer | callState | unwrap =>
    unfold step
    dsimp only
    split <;> rfl
  | pollReady number inner =>
    unfold step pollReady
    dsimp only
    split <;> rfl

theorem atOnceOf_turned (s : Session α) (action : Action α) (turn : s.turn action ≠ .aside) :
    s.atOnceOf action = 0 := by
  cases action with
  | acquire | acquireBefore | acquireCancellable | call | poll | drop => rfl
  | _ => exact absurd rfl turn

theorem atOnceOf_turn (s : Session α) (action : Action α) :
    s.atOnceOf action = match s.turn action with
      | .aside => (s.step action).2.2.passed
      | .start _ _ | .poll _ | .drop _ => 0 := by
  cases turn : s.turn action with
  | aside => exact s.atOnceOf_aside action turn
  | start | poll | drop => exact s.atOnceOf_turned action (by simp [turn])

end LoadPacing.Session
