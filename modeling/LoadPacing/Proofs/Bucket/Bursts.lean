import LoadPacing.Proofs.Bucket.Refusing
import LoadPacing.Proofs.Bucket.Retuning
import LoadPacing.Proofs.Bucket.Solvency

-- How many permits can be had at one instant: the whole ones, and one on credit if its wait rounds to nothing.
namespace LoadPacing.Bucket
variable {b : Bucket} {now : Nanos} {last : Booking} {permits : Nat}

-- So many attempts on the spot in a row are granted, and the next one comes to this.
def Lasts (now : Nanos) (last : Booking) : Bucket → Nat → Prop
  | b, 0 => (b.reserve now (.by now)).1 = last
  | b, permits + 1 => (b.reserve now (.by now)).1.permits = 1 ∧ (b.reserve now (.by now)).2.Lasts now last permits

theorem lasts_refilled (flows : b.rate.Positive) (lasts : (b.refill now).Lasts now last permits) :
    b.Lasts now last permits := by
  cases permits with
  | zero | succ =>
    unfold Lasts at lasts ⊢
    rwa [reserve_again flows] at lasts

theorem lasts_run (flows : b.rate.Positive) (lasts : b.Lasts now last permits) (none : last.permits = 0) (attempts : Nat) :
    (b.run (List.replicate attempts (.reserve now (.by now)))).Lasts now last (permits - attempts) := by
  induction attempts generalizing b permits with
  | zero => exact lasts
  | succ attempts ih =>
    rw [List.replicate_succ,run_cons]
    have next : (b.apply (.reserve now (.by now))).rate.Positive := run_flows flows [.reserve now (.by now)]
    cases permits with
    | zero =>
      have unbooked : (b.reserve now (.by now)).1.permits = 0 := by rw [show _ = last from lasts,none]
      have left : b.apply (.reserve now (.by now)) = b.refill now := reserve_unbooked unbooked
      rw [left] at next ⊢
      have again : (b.refill now).Lasts now last 0 := by
        unfold Lasts
        rw [reserve_again flows]
        exact lasts
      have later := ih next again
      rwa [Nat.zero_sub] at later ⊢
    | succ permits =>
      rw [Nat.succ_sub_succ]
      exact ih next lasts.2

-- At the last refill's instant, with that refill made.
structure Still (now : Nanos) (b : Bucket) : Prop where
  flows : b.rate.Positive
  clock : b.refilled = now
  stored : b.balance ≤ b.capacity
  plain : b.balance + 0 = b.balance

theorem Still.refill (still : b.Still now) : b.refill now = b := by
  rw [refill_still still.flows still.clock still.stored,still.plain]

theorem refill_stills (flows : b.rate.Positive) (past : b.refilled ≤ now) : (b.refill now).Still now := by
  have capacity := (Binary64.number_of_le b.one_le_capacity).2
  exact ⟨flows,Nat.max_eq_right past,Binary64.min_le_right capacity,b.refill_plain flows now⟩

theorem Still.take (still : b.Still now) : b.take.Still now :=
  ⟨still.flows,still.clock,
    Binary64.le_trans (Binary64.sub_one_le (Binary64.number_of_le still.stored).1) still.stored,
    Binary64.sub_one_plain b.balance⟩

theorem taken_exact (finite : b.balance.IsFinite) (full : 1 ≤ b.balance.value) (small : b.balance.value ≤ 2 ^ 53) :
    b.take.balance.Yields (b.balance.value - 1) := by
  obtain ⟨difference,exact⟩ := Binary64.one_sub_exact finite (by linarith) small
  have turned := Binary64.negate_yields exact
  rw [neg_sub] at turned
  have taken := Binary64.sub_rounds finite Binary64.one_yields.1
  rw [Binary64.one_yields.2] at taken
  exact taken.exact turned

theorem reserve_stills (flows : b.rate.Positive) (past : b.refilled ≤ now) (terms : Terms) :
    (b.reserve now terms).2.Still now := by
  have refilled := refill_stills flows past
  rcases b.reserve_cases now terms with eq | eq | ⟨ready,_,eq⟩
  · rw [eq]; exact refilled
  · rw [eq]; exact refilled
  · rw [eq]; exact refilled.take

theorem run_stills (flows : b.rate.Positive) (past : b.refilled ≤ now) {attempts : Nat} (some : 0 < attempts) :
    (b.run (List.replicate attempts (.reserve now (.by now)))).Still now := by
  obtain ⟨before,rfl⟩ := Nat.exists_eq_add_of_lt some
  have read : ∀ op ∈ List.replicate before (Op.reserve now (.by now)), op.At now := by
    intro op member
    rw [(List.mem_replicate.mp member).2]
    rfl
  rw [Nat.zero_add,List.replicate_succ',run_append]
  exact reserve_stills (run_flows flows _) (run_refilled b _ read past) (.by now)

section Instant
variable (still : b.Still now) (finite : b.balance.IsFinite)
include still

theorem still_full (full : 1 ≤ b.balance) : b.reserve now (.by now) = (.booked now,b.take) := by
  have told : (b.refill now).readyAt now = some now := by
    rw [still.refill]
    exact if_pos full
  rw [reserve_ready told (Int.le_refl _),still.refill]

include finite

theorem still_owed (fast : b.rate.value ≤ 10 ^ 9) (owed : b.balance.value ≤ 0) :
    (b.reserve now (.by now)).1.permits = 0 := by
  have short : ¬ 1 ≤ b.balance := (Binary64.below_one finite).mpr (by linarith)
  cases told : (b.refill now).readyAt now with
  | none => rw [reserve_lost told]; rfl
  | some ready =>
    have late : now < ready := by
      rw [still.refill] at told
      refine late_of_lacking still.flows short (fun _ => ?_) told
      rw [div_le_iff₀ (by norm_num)]
      linarith
    have refused : ¬ Terms.Accept (.by now) ready := fun accepted => Nat.not_le.mpr late (Int.ofNat_le.mp accepted)
    rw [reserve_late told refused]
    rfl

theorem still_refused (slow : 1 / 10 ^ 9 ≤ b.rate.value) (deep : -1 ≤ b.balance.value)
    (early : now + 2 * 10 ^ 9 * Nanos.perSecond < Nanos.horizon) (unbooked : (b.reserve now (.by now)).1.permits = 0) :
    (b.reserve now (.by now)).1 = .refused := by
  have solvent : b.Solvent (1 / 10 ^ 9) 2 := by
    refine ⟨still.flows,slow,?_⟩
    have lowest := lowest_yields 2
    rw [Binary64.value_le lowest.1 finite,lowest.2]
    norm_num
    linarith
  have whole : (Binary64.ofNat (2 * 10 ^ 9)).Yields (2 * 10 ^ 9 : Nat) := Binary64.ofNat_yields (by norm_num)
  have told := reserve_told solvent (by norm_num) (by norm_num) whole early (.by now)
  cases booking : (b.reserve now (.by now)).1 with
  | booked ready =>
    rw [booking] at unbooked
    cases unbooked
  | refused => rfl
  | overflow => exact absurd booking told

end Instant

theorem taken_owed (finite : b.balance.IsFinite) (some : 0 ≤ b.balance.value) (short : b.balance.value ≤ 1) :
    b.take.balance.IsFinite ∧ -1 ≤ b.take.balance.value ∧ b.take.balance.value ≤ 0 := by
  have one := Binary64.one_yields
  have minus := Binary64.negate_yields one
  have zero := Binary64.zero_yields
  have taken := Binary64.sub_rounds finite one.1
  rw [one.2] at taken
  have between := taken.between minus.rounds zero.rounds minus.1 zero.1 (by linarith) (by linarith)
  rwa [minus.2,zero.2] at between

-- The permits that are had at once from this balance, and what the attempt after them comes to.
structure Burst (now : Nanos) (b : Bucket) (permits : Nat) (last : Booking) : Prop where
  lasts : b.Lasts now last permits
  unbooked : last.permits = 0
  least : ⌊b.balance.value⌋₊ ≤ permits
  most : permits ≤ ⌈b.balance.value⌉₊
  refused : 0 ≤ b.balance.value → now + 2 * 10 ^ 9 * Nanos.perSecond < Nanos.horizon → last = .refused

section Steady
variable (still : b.Still now) (fast : b.rate.value ≤ 10 ^ 9) (slow : 1 / 10 ^ 9 ≤ b.rate.value)
  (finite : b.balance.IsFinite)
include still fast slow finite

theorem part_burst (short : b.balance.value < 1) : ∃ permits last, b.Burst now permits last := by
  have part : ⌊b.balance.value⌋₊ = 0 := Nat.floor_eq_zero.mpr short
  cases booking : (b.reserve now (.by now)).1 with
  | refused | overflow =>
    have unbooked : (b.reserve now (.by now)).1.permits = 0 := by
      rw [booking]
      rfl
    refine ⟨0,_,rfl,unbooked,part.le,Nat.zero_le _,fun least early => ?_⟩
    exact still_refused still finite slow (by linarith) early unbooked
  | booked ready =>
    have some : 0 < b.balance.value := by
      by_contra owed
      have unbooked := still_owed still finite fast (not_lt.mp owed)
      rw [booking] at unbooked
      cases unbooked
    obtain ⟨_,left⟩ := reserve_booking booking
    rw [still.refill] at left
    obtain ⟨takenFinite,deep,owed⟩ := taken_owed finite some.le short.le
    have unbooked := still_owed still.take takenFinite fast owed
    have lasts : b.Lasts now (b.take.reserve now (.by now)).1 1 := ⟨by rw [booking]; rfl,by rw [left]; rfl⟩
    exact ⟨1,_,lasts,unbooked,part.le.trans (Nat.zero_le _),Nat.one_le_ceil_iff.mpr some,
      fun _ early => still_refused still.take takenFinite slow deep early unbooked⟩

theorem whole_burst (small : b.balance.value ≤ 2 ^ 53) (most : Nat) (fewer : b.balance.value ≤ most) :
    ∃ permits last, b.Burst now permits last := by
  induction most generalizing b with
  | zero => exact part_burst still fast slow finite (by linarith [show b.balance.value ≤ 0 by exact_mod_cast fewer])
  | succ most ih =>
    rcases lt_or_ge b.balance.value 1 with short | full
    · exact part_burst still fast slow finite short
    have one := Binary64.one_yields
    have there : 1 ≤ b.balance := by rwa [Binary64.value_le one.1 finite,one.2]
    have granted := still_full still there
    obtain ⟨takenFinite,taken⟩ := taken_exact finite full small
    push_cast at fewer
    obtain ⟨permits,last,lasts,unbooked,least,ceil,refused⟩ :=
      ih still.take fast slow takenFinite (by rw [taken]; linarith) (by rw [taken]; linarith)
    rw [taken] at least ceil refused
    have rest : 0 ≤ b.balance.value - 1 := by linarith
    have floors := Nat.floor_add_one rest
    have ceils := Nat.ceil_add_one rest
    rw [sub_add_cancel] at floors ceils
    have next : b.Lasts now last (permits + 1) := ⟨by rw [granted]; rfl,by rw [granted]; exact lasts⟩
    refine ⟨permits + 1,last,next,unbooked,?_,?_,fun _ => refused rest⟩
    · rw [floors]
      exact Nat.succ_le_succ least
    · rw [ceils]
      exact Nat.succ_le_succ ceil

end Steady

theorem stored_whole (flows : b.rate.Positive) (burst : b.burst.IsFinite) (stored : b.balance ≤ b.capacity)
    (finite : b.balance.IsFinite) (small : b.balance.value ≤ 2 ^ 53) :
    ⌈b.balance.value⌉₊ ≤ ⌊max 1 (b.burst.value * b.rate.value)⌋₊ + 1 := by
  generalize whole : ⌊max 1 (b.burst.value * b.rate.value)⌋₊ + 1 = next
  have above : max 1 (b.burst.value * b.rate.value) ≤ next := by
    rw [← whole]
    exact_mod_cast (Nat.lt_floor_add_one (max 1 (b.burst.value * b.rate.value))).le
  obtain ⟨one,product⟩ := max_le_iff.mp above
  rw [Nat.ceil_le]
  by_contra past
  have few : next ≤ 2 ^ 53 := by exact_mod_cast (not_le.mp past).le.trans small
  have exact := Binary64.ofNat_yields few
  have capped : b.capacity ≤ Binary64.ofNat next :=
    Binary64.max_le ((Binary64.mul_rounds burst flows.1).le exact.rounds product)
      (Binary64.one_yields.rounds.le exact.rounds one)
  have balance := (Binary64.value_le finite exact.1).mp (Binary64.le_trans stored capped)
  rw [exact.2] at balance
  exact past balance

end LoadPacing.Bucket
