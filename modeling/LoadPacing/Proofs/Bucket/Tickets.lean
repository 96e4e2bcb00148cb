import LoadPacing.Proofs.Binary64.Nearest
import LoadPacing.Proofs.Bucket.Admission
import Mathlib.Algebra.Order.Group.MinMax

-- A bucket whose rate stays is a counter that hands out tickets at even intervals: all that it remembers of its history
-- is the instant from which the next one is valid.
namespace LoadPacing

structure Tickets where
  -- Nanoseconds from one ticket to the next.
  interval : ℚ
  -- How far the next ticket may fall behind the clock while nobody asks.
  slack : ℚ
  next : ℚ
  lastBooking : Nanos

namespace Tickets

def opened (rate burst : ℚ) (start : Nanos) : Tickets where
  interval := 10 ^ 9 / rate
  slack := (max 1 (burst * rate) - 1) * (10 ^ 9 / rate)
  next := start
  lastBooking := start

def readyAt (t : Tickets) (now : Nanos) : Option Nanos :=
  if t.next ≤ now then some now else Nanos.after now (nearestEven (t.next - now))

def issue (t : Tickets) (now : Nanos) : Tickets :=
  { t with next := max t.next (now - t.slack) + t.interval, lastBooking := now }

-- An attempt that books nothing leaves no mark.
def reserve (t : Tickets) (now : Nanos) (terms : Terms) : Booking × Tickets :=
  match t.readyAt now with
  | none => (.overflow,t)
  | some ready => if terms.Accept ready then (.booked ready,t.issue now) else (.refused,t)

def giveBack (t : Tickets) : Tickets :=
  { t with next := max (t.next - t.interval) (t.lastBooking - t.slack) }

def apply (t : Tickets) : Bucket.Op → Tickets
  | .reserve now terms => (t.reserve now terms).2
  | .giveBack _ => t.giveBack
  | .retune _ => t

def run (t : Tickets) (ops : List Bucket.Op) : Tickets := ops.foldl apply t

def diary (t : Tickets) : List Bucket.Op → List (Nanos × Booking)
  | [] => []
  | .reserve now terms :: rest => (now,(t.reserve now terms).1) :: (t.reserve now terms).2.diary rest
  | .giveBack _ :: rest => t.giveBack.diary rest
  | .retune _ :: rest => t.diary rest

end Tickets

def Bucket.diary (b : Bucket) : List Op → List (Nanos × Booking)
  | [] => []
  | .reserve now terms :: rest => (now,(b.reserve now terms).1) :: (b.reserve now terms).2.diary rest
  | .giveBack ready :: rest => (b.apply (.giveBack ready)).diary rest
  | .retune rate :: rest => (b.apply (.retune rate)).diary rest

def Bucket.CapacityExact (b : Bucket) : Prop := (b.burst * b.rate).Yields (b.burst.value * b.rate.value)

instance (b : Bucket) : Decidable b.CapacityExact := inferInstanceAs (Decidable (_ ∧ _))

-- A ticket that has fallen behind by more than the slack counts as one that has fallen behind by the slack.
structure Tickets.Tracks (t : Tickets) (b : Bucket) : Prop where
  flows : b.rate.Positive
  finite : b.balance.IsFinite
  bounded : b.capacity.IsFinite
  interval : t.interval = 10 ^ 9 / b.rate.value
  slack : t.slack = (b.capacity.value - 1) * t.interval
  booked : t.lastBooking ≤ b.refilled
  next : (b.refilled : ℚ) + (1 - b.balance.value) * t.interval = max t.next (b.refilled - t.slack)

namespace Tickets
variable {t : Tickets} {b : Bucket} {now : Nanos}

theorem owed_min (clock x y : ℚ) {interval : ℚ} (positive : 0 ≤ interval) :
    clock + (1 - min x y) * interval = max (clock + (1 - x) * interval) (clock + (1 - y) * interval) := by
  rcases le_total x y with below | above
  · rw [min_eq_left below,max_eq_left]
    gcongr
  · rw [min_eq_right above,max_eq_right]
    gcongr

theorem Tracks.interval_pos (tracks : t.Tracks b) : 0 < t.interval := by
  rw [tracks.interval]
  exact div_pos (by norm_num) (Binary64.positive_value tracks.flows)

theorem Tracks.slack_nonneg (tracks : t.Tracks b) : 0 ≤ t.slack := by
  have one := (Binary64.value_le Binary64.one_yields.1 tracks.bounded).mp b.one_le_capacity
  rw [Binary64.one_yields.2] at one
  rw [tracks.slack]
  exact mul_nonneg (by linarith) (le_of_lt tracks.interval_pos)

theorem opened_tracks {rate burst : Binary64} (made : Bucket.new rate burst start = .ok b) (exact : b.CapacityExact) :
    (opened b.rate.value b.burst.value start).Tracks b := by
  obtain ⟨flows,_,_,rfl⟩ := Bucket.new_ok made
  obtain ⟨productFinite,product⟩ := exact
  obtain ⟨bounded,capacity⟩ := Binary64.value_max productFinite Binary64.one_yields.1
  rw [product,Binary64.one_yields.2,max_comm] at capacity
  have positive := Binary64.positive_value flows
  have most : (1 : ℚ) ≤ max 1 (burst.value * rate.value) := le_max_left _ _
  refine ⟨flows,Binary64.one_yields.1,bounded,rfl,?_,Nat.le_refl _,?_⟩
  · show _ = (Binary64.value (max (burst * rate) 1) - 1) * _
    rw [capacity]
    rfl
  · have slack : 0 ≤ (max 1 (burst.value * rate.value) - 1) * (10 ^ 9 / rate.value) :=
      mul_nonneg (by linarith) (by positivity)
    show (start : ℚ) + (1 - (1 : Binary64).value) * _ = max (start : ℚ) (start - _)
    rw [Binary64.one_yields.2,sub_self,zero_mul,add_zero,max_eq_left]
    exact sub_le_self _ slack

-- A refill moves the clock and, with it, the bound that the slack sets; the ticket stays.
theorem Tracks.refill (tracks : t.Tracks b) (past : b.refilled ≤ now) (unrounded : b.RefillExact now) :
    t.Tracks (b.refill now) ∧ (b.refill now).refilled = now := by
  obtain ⟨⟨_,elapsed⟩,⟨_,gained⟩,⟨sumFinite,sum⟩⟩ := unrounded
  obtain ⟨finite,balance⟩ := Binary64.value_min sumFinite tracks.bounded
  rw [sum,gained,elapsed,Nat.cast_sub past] at balance
  have refilled : (b.refill now).refilled = now := Nat.max_eq_right past
  refine ⟨⟨tracks.flows,finite,tracks.bounded,tracks.interval,tracks.slack,?_,?_⟩,refilled⟩
  · rw [refilled]
    exact Nat.le_trans tracks.booked past
  · have positive := Binary64.positive_value tracks.flows
    have brought : ((now : ℚ) - b.refilled) / 10 ^ 9 * b.rate.value * t.interval = now - b.refilled := by
      rw [tracks.interval]
      field_simp
    have later : (b.refilled : ℚ) - t.slack ≤ now - t.slack := by
      have cast : (b.refilled : ℚ) ≤ now := by exact_mod_cast past
      linarith
    have moved : (b.refill now).balance.value =
        min (b.balance.value + ((now : ℚ) - b.refilled) / 10 ^ 9 * b.rate.value) b.capacity.value := balance
    rw [refilled,moved]
    calc (now : ℚ) + (1 - min (b.balance.value + ((now : ℚ) - b.refilled) / 10 ^ 9 * b.rate.value)
          b.capacity.value) * t.interval
        = max (now + (1 - (b.balance.value + ((now : ℚ) - b.refilled) / 10 ^ 9 * b.rate.value)) * t.interval)
            (now + (1 - b.capacity.value) * t.interval) := owed_min now _ _ (le_of_lt tracks.interval_pos)
      _ = max (b.refilled + (1 - b.balance.value) * t.interval) (now - t.slack) := by
          congr 1
          · linarith
          · rw [tracks.slack]
            ring
      _ = max t.next (now - t.slack) := by
          rw [tracks.next,max_assoc,max_eq_right later]

theorem Tracks.readyAt (tracks : t.Tracks b) (clock : b.refilled = now)
    (unrounded : ¬ 1 ≤ b.balance → b.DebtExact) : b.readyAt now = t.readyAt now := by
  have interval := tracks.interval_pos
  have slack := tracks.slack_nonneg
  have next := tracks.next
  rw [clock] at next
  have enough := Binary64.value_le Binary64.one_yields.1 tracks.finite
  rw [Binary64.one_yields.2] at enough
  unfold Bucket.readyAt Tickets.readyAt
  by_cases full : 1 ≤ b.balance
  · have nonneg : 0 ≤ (b.balance.value - 1) * t.interval :=
      mul_nonneg (by linarith [enough.mp full]) (le_of_lt interval)
    have due : t.next ≤ now := by
      have least := le_max_left t.next (now - t.slack)
      linarith
    rw [if_pos full,if_pos due]
  · have short : b.balance.value < 1 := lt_of_not_ge (mt enough.mpr full)
    have owed : 0 < (1 - b.balance.value) * t.interval := mul_pos (by linarith) interval
    have ticket : max t.next (now - t.slack) = t.next := by
      apply max_eq_left
      apply le_of_not_gt
      intro behind
      rw [max_eq_right (le_of_lt behind)] at next
      linarith
    rw [ticket] at next
    have ahead : ¬ t.next ≤ now := by linarith
    obtain ⟨⟨_,difference⟩,⟨finite,quotient⟩⟩ := unrounded full
    have positive := Binary64.positive_value tracks.flows
    have wait : b.debt.value * 10 ^ 9 = t.next - now := by
      rw [quotient,difference,← next,tracks.interval]
      field_simp
      ring
    have nonneg : 0 ≤ b.debt.value := by linarith
    rw [if_neg full,if_neg ahead,← wait]
    exact Nanos.after_seconds finite nonneg now

theorem Tracks.take (tracks : t.Tracks b) (clock : b.refilled = now)
    (unrounded : (b.balance - 1).Yields (b.balance.value - 1)) : (t.issue now).Tracks b.take := by
  obtain ⟨finite,difference⟩ := unrounded
  have interval := tracks.interval_pos
  have next := tracks.next
  rw [clock] at next
  refine ⟨tracks.flows,finite,tracks.bounded,tracks.interval,tracks.slack,?_,?_⟩
  · show now ≤ b.refilled
    exact Nat.le_of_eq clock.symm
  · show (b.refilled : ℚ) + (1 - (b.balance - 1).value) * t.interval =
      max (max t.next (now - t.slack) + t.interval) (b.refilled - t.slack)
    have least := le_max_right t.next (now - t.slack)
    rw [difference,clock,max_eq_left (by linarith),← next]
    ring

theorem Tracks.giveBack (tracks : t.Tracks b) (unrounded : (b.balance + 1).Yields (b.balance.value + 1)) :
    t.giveBack.Tracks b.giveBack := by
  obtain ⟨sumFinite,sum⟩ := unrounded
  obtain ⟨finite,balance⟩ := Binary64.value_min sumFinite tracks.bounded
  rw [sum] at balance
  have moved : b.giveBack.balance.value = min (b.balance.value + 1) b.capacity.value := balance
  have interval := tracks.interval_pos
  have past : (t.lastBooking : ℚ) ≤ b.refilled := by exact_mod_cast tracks.booked
  refine ⟨tracks.flows,finite,tracks.bounded,tracks.interval,tracks.slack,tracks.booked,?_⟩
  rw [moved]
  calc (b.refilled : ℚ) + (1 - min (b.balance.value + 1) b.capacity.value) * t.interval
      = max (b.refilled + (1 - (b.balance.value + 1)) * t.interval)
          (b.refilled + (1 - b.capacity.value) * t.interval) := owed_min b.refilled _ _ (le_of_lt interval)
    _ = max (max t.next (b.refilled - t.slack) - t.interval) (b.refilled - t.slack) := by
        congr 1
        · rw [← tracks.next]
          ring
        · rw [tracks.slack]
          ring
    _ = max (t.next - t.interval) (b.refilled - t.slack) := by
        rw [← max_sub_sub_right,max_assoc]
        congr 1
        exact max_eq_right (by linarith)
    _ = max (max (t.next - t.interval) (t.lastBooking - t.slack)) (b.refilled - t.slack) := by
        rw [max_assoc]
        congr 1
        exact (max_eq_right (by linarith)).symm

theorem Tracks.reserve (tracks : t.Tracks b) {terms : Terms} (past : b.refilled ≤ now)
    (unrounded : b.Exact (.reserve now terms)) :
    (b.reserve now terms).1 = (t.reserve now terms).1 ∧ (t.reserve now terms).2.Tracks (b.reserve now terms).2 := by
  obtain ⟨refill,debt,taken⟩ := unrounded
  obtain ⟨refilled,clock⟩ := tracks.refill past refill
  have ready := refilled.readyAt clock debt
  have take := refilled.take clock
  unfold Bucket.reserve at taken ⊢
  unfold Tickets.reserve
  rw [← ready]
  cases at_ : (b.refill now).readyAt now with
  | none => exact ⟨rfl,refilled⟩
  | some instant =>
    rw [at_] at taken
    dsimp only at taken ⊢
    split
    · rename_i accepted
      rw [if_pos accepted] at taken
      exact ⟨rfl,take (taken rfl)⟩
    · exact ⟨rfl,refilled⟩

theorem Tracks.apply {op : Bucket.Op} (tracks : t.Tracks b) (inOrder : b.InOrder live op) (unrounded : b.Exact op)
    (steady : (b.apply op).rate = b.rate) : (t.apply op).Tracks (b.apply op) := by
  cases op with
  | reserve now terms => exact (tracks.reserve inOrder unrounded).2
  | giveBack ready => exact tracks.giveBack unrounded
  | retune rate =>
    have same : b.apply (.retune rate) = b := by
      by_cases flows : rate.Positive
      · have set : b.apply (.retune rate) = { b with rate } := if_pos flows
        rw [set] at steady ⊢
        rw [show rate = b.rate from steady]
      · exact if_neg flows
    rw [same]
    exact tracks

theorem Tracks.run (ops : List Bucket.Op) (tracks : t.Tracks b) (orderly : b.Orderly live ops) (unrounded : b.ExactRun ops)
    (steady : ∀ passed ∈ b.trail ops, passed.rate = b.rate) :
    b.diary ops = t.diary ops ∧ (t.run ops).Tracks (b.run ops) := by
  induction ops generalizing t b live with
  | nil => exact ⟨rfl,tracks⟩
  | cons op rest ih =>
    have after : (b.apply op).rate = b.rate := by
      apply steady
      cases rest <;> simp [Bucket.trail]
    have later : ∀ passed ∈ (b.apply op).trail rest, passed.rate = (b.apply op).rate := by
      intro passed member
      rw [after]
      exact steady passed (List.mem_cons_of_mem b member)
    have next := tracks.apply orderly.1 unrounded.1 after
    obtain ⟨same,ended⟩ := ih next orderly.2 unrounded.2 later
    refine ⟨?_,ended⟩
    cases op with
    | reserve now terms =>
      have first := (tracks.reserve orderly.1 unrounded.1).1
      exact congrArg₂ List.cons (congrArg (Prod.mk now) first) same
    | giveBack ready => exact same
    | retune rate => exact same

theorem diary_append (t : Tickets) (xs ys : List Bucket.Op) :
    t.diary (xs ++ ys) = t.diary xs ++ (t.run xs).diary ys := by
  induction xs generalizing t with
  | nil => rfl
  | cons op rest ih =>
    cases op with
    | reserve now terms => exact congrArg (_ :: ·) (ih _)
    | giveBack ready => exact ih _
    | retune rate => exact ih _

theorem reserve_unbooked (none : (t.reserve now terms).1.permits = 0) : (t.reserve now terms).2 = t := by
  unfold reserve at none ⊢
  split
  · rfl
  · rename_i ready at_
    rw [at_] at none
    dsimp only at none
    split
    · rename_i accepted
      rw [if_pos accepted] at none
      cases none
    · rfl

theorem diary_unbooked (t : Tickets) (before after : List Bucket.Op) {terms : Terms}
    (none : ((t.run before).reserve now terms).1.permits = 0) :
    t.diary (before ++ .reserve now terms :: after) =
      t.diary before ++ (now,((t.run before).reserve now terms).1) :: (t.run before).diary after := by
  rw [diary_append]
  show _ ++ (_ :: ((t.run before).reserve now terms).2.diary after) = _
  rw [reserve_unbooked none]

end Tickets

structure Grant where
  asked : Nanos
  ready : Nanos
  deriving DecidableEq

def Grant.Waits (g : Grant) : Prop := g.asked < g.ready

instance (g : Grant) : Decidable g.Waits := inferInstanceAs (Decidable (_ < _))

def Grant.ofEntry (entry : Nanos × Booking) : Option Grant :=
  match entry.2 with
  | .booked ready => some ⟨entry.1,ready⟩
  | .refused | .overflow => none

-- The permits of a diary in the order of their reservations.
def grants (diary : List (Nanos × Booking)) : List Grant := diary.filterMap Grant.ofEntry

def Bucket.Forward (clock : Nanos) : List Op → Prop
  | [] => True
  | .reserve now _ :: rest => clock ≤ now ∧ Forward now rest
  | .giveBack _ :: rest | .retune _ :: rest => Forward clock rest

theorem Bucket.forward_tail {op : Op} (forward : Forward clock (op :: rest)) :
    ∃ later, clock ≤ later ∧ Forward later rest := by
  cases op with
  | reserve now terms => exact ⟨now,forward.1,forward.2⟩
  | giveBack | retune => exact ⟨clock,Nat.le_refl clock,forward⟩

theorem Bucket.orderly_forward (b : Bucket) (ops : List Op) (orderly : b.Orderly live ops) :
    Forward b.refilled ops := by
  induction ops generalizing b live with
  | nil => trivial
  | cons op rest ih =>
    obtain ⟨first,later⟩ := orderly
    have next := ih _ later
    cases op with
    | reserve now terms =>
      rw [apply,reserve_refilled,Nat.max_eq_right first] at next
      exact ⟨first,next⟩
    | giveBack ready => exact next
    | retune rate =>
      rwa [apply,retune_refilled] at next

namespace Tickets
variable {t : Tickets} {now clock : Nanos} {ops : List Bucket.Op}

-- A ticket is honoured when it is valid, up to half a nanosecond, and never before it is asked for.
theorem readyAt_cases (at_ : t.readyAt now = some ready) :
    (t.next ≤ now ∧ ready = now) ∨
    ((now : ℚ) < t.next ∧ t.next - 1 / 2 ≤ ready ∧ (ready : ℚ) ≤ t.next + 1 / 2 ∧ now ≤ ready) := by
  unfold readyAt at at_
  split at at_
  · rename_i valid
    cases at_
    exact .inl ⟨valid,rfl⟩
  · rename_i ahead
    unfold Nanos.after at at_
    split at at_
    · cases at_
      have later : (now : ℚ) < t.next := lt_of_not_ge ahead
      obtain ⟨low,high⟩ := nearestEven_near (show 0 ≤ t.next - now by linarith)
      push_cast
      exact .inr ⟨later,by linarith,by linarith,Nat.le_add_right _ _⟩
    · cases at_

theorem reserve_booked (t : Tickets) (now : Nanos) (terms : Terms) :
    (∃ ready, t.readyAt now = some ready ∧ t.reserve now terms = (.booked ready,t.issue now)) ∨
    (Grant.ofEntry (now,(t.reserve now terms).1) = none ∧ (t.reserve now terms).2 = t) := by
  unfold reserve
  split
  · exact .inr ⟨rfl,rfl⟩
  · rename_i ready at_
    split
    · exact .inl ⟨ready,at_,rfl⟩
    · exact .inr ⟨rfl,rfl⟩

theorem grants_cons (t : Tickets) (op : Bucket.Op) (rest : List Bucket.Op) (kept : Bucket.givenBack (op :: rest) = 0) :
    Bucket.givenBack rest = 0 ∧
    (grants (t.diary (op :: rest)) = grants (t.diary rest) ∨
      ∃ now terms ready, op = .reserve now terms ∧ t.readyAt now = some ready ∧
        grants (t.diary (op :: rest)) = ⟨now,ready⟩ :: grants ((t.issue now).diary rest)) := by
  cases op with
  | giveBack ready => cases kept
  | retune rate => exact ⟨kept,.inl rfl⟩
  | reserve now terms =>
    refine ⟨kept,?_⟩
    rcases t.reserve_booked now terms with ⟨ready,at_,eq⟩ | ⟨none,same⟩
    · refine .inr ⟨now,terms,ready,rfl,at_,?_⟩
      simp only [diary,eq,grants,List.filterMap_cons,Grant.ofEntry]
    · refine .inl ?_
      simp only [diary,grants,List.filterMap_cons,none,same]

theorem reached_ready (at_ : t.readyAt now = some ready) (passed : instant ≤ now ∨ (instant : ℚ) < t.next + 1 / 2) :
    instant ≤ ready := by
  have close : (instant : ℚ) < ready + 1 → instant ≤ ready := fun below => Nat.le_of_lt_succ (by exact_mod_cast below)
  rcases readyAt_cases at_ with ⟨valid,rfl⟩ | ⟨ahead,low,_,asked⟩
  · rcases passed with reached | below
    · exact reached
    · exact close (by linarith)
  · rcases passed with reached | below
    · exact Nat.le_trans reached asked
    · exact close (by linarith)

theorem next_issue (t : Tickets) (now : Nanos) : t.next + t.interval ≤ (t.issue now).next := by
  have least := le_max_left t.next (now - t.slack)
  show _ ≤ max t.next (now - t.slack) + t.interval
  linarith

theorem grants_after (positive : 0 < t.interval) (forward : Bucket.Forward clock ops)
    (kept : Bucket.givenBack ops = 0) (passed : instant ≤ clock ∨ (instant : ℚ) < t.next + 1 / 2) :
    ∀ g ∈ grants (t.diary ops), instant ≤ g.ready := by
  induction ops generalizing t clock with
  | nil => nofun
  | cons op rest ih =>
    obtain ⟨more,none | ⟨now,terms,ready,rfl,at_,some⟩⟩ := t.grants_cons op rest kept
    · obtain ⟨later,reached,further⟩ := Bucket.forward_tail forward
      rw [none]
      exact ih positive further more (passed.imp_left fun before => Nat.le_trans before reached)
    · obtain ⟨first,later⟩ := forward
      have here : instant ≤ now ∨ (instant : ℚ) < t.next + 1 / 2 := passed.imp_left fun before => Nat.le_trans before first
      have issued := t.next_issue now
      rw [some]
      intro g member
      rcases List.mem_cons.mp member with rfl | other
      · exact reached_ready at_ here
      · exact ih (t := t.issue now) positive later more (here.imp_right fun below => by linarith) g other

theorem grants_ordered (positive : 0 < t.interval) (forward : Bucket.Forward clock ops)
    (kept : Bucket.givenBack ops = 0) : (grants (t.diary ops)).Pairwise fun x y => x.ready ≤ y.ready := by
  induction ops generalizing t clock with
  | nil => exact .nil
  | cons op rest ih =>
    obtain ⟨more,none | ⟨now,terms,ready,rfl,at_,some⟩⟩ := t.grants_cons op rest kept
    · obtain ⟨later,_,further⟩ := Bucket.forward_tail forward
      rw [none]
      exact ih positive further more
    · obtain ⟨_,later⟩ := forward
      have passed : ready ≤ now ∨ (ready : ℚ) < (t.issue now).next + 1 / 2 := by
        rcases readyAt_cases at_ with ⟨_,rfl⟩ | ⟨_,_,high,_⟩
        · exact .inl (Nat.le_refl _)
        · have issued := t.next_issue now
          exact .inr (by linarith)
      rw [some]
      exact .cons (grants_after (t := t.issue now) positive later more passed)
        (ih (t := t.issue now) positive later more)

theorem grants_due (positive : 0 < t.interval) (slack : 0 ≤ t.slack) (kept : Bucket.givenBack ops = 0)
    (split : grants (t.diary ops) = waiting ++ last :: after) (wait : ∀ g ∈ waiting, g.Waits) (lastWaits : last.Waits) :
    |(last.ready : ℚ) - (t.next + waiting.length * t.interval)| ≤ 1 / 2 := by
  induction ops generalizing t waiting with
  | nil => simp [diary,grants] at split
  | cons op rest ih =>
    obtain ⟨more,none | ⟨now,terms,ready,rfl,at_,some⟩⟩ := t.grants_cons op rest kept
    · rw [none] at split
      exact ih positive slack more split wait
    · rw [some] at split
      have valid : now < ready → (now : ℚ) < t.next ∧ t.next - 1 / 2 ≤ ready ∧ (ready : ℚ) ≤ t.next + 1 / 2 := by
        intro waits
        rcases readyAt_cases at_ with ⟨_,rfl⟩ | ⟨ahead,low,high,_⟩
        · exact absurd waits (Nat.lt_irrefl _)
        · exact ⟨ahead,low,high⟩
      cases waiting with
      | nil =>
        obtain ⟨rfl,_⟩ := List.cons.inj split
        obtain ⟨_,low,high⟩ := valid lastWaits
        rw [List.length_nil,Nat.cast_zero,zero_mul,add_zero,abs_le]
        exact ⟨by linarith,by linarith⟩
      | cons first waiting =>
        obtain ⟨head,others⟩ := List.cons.inj split
        have waits := wait first List.mem_cons_self
        rw [← head] at waits
        obtain ⟨ahead,_⟩ := valid waits
        have next : (t.issue now).next = t.next + t.interval := by
          show max t.next (now - t.slack) + t.interval = _
          rw [max_eq_left (by linarith)]
        have due := ih (t := t.issue now) positive slack more others fun g member => wait g (List.mem_cons_of_mem _ member)
        have interval : (t.issue now).interval = t.interval := rfl
        have count : t.next + ((first :: waiting).length : ℚ) * t.interval =
            t.next + t.interval + waiting.length * t.interval := by
          rw [List.length_cons]
          push_cast
          ring
        rw [next,interval] at due
        rwa [count]

-- The roundings of two waits to whole nanoseconds do not add up over the permits between them.
theorem grants_spaced (positive : 0 < t.interval) (slack : 0 ≤ t.slack) (kept : Bucket.givenBack ops = 0)
    (split : grants (t.diary ops) = before ++ first :: (between ++ last :: after)) (firstWaits : first.Waits)
    (wait : ∀ g ∈ between, g.Waits) (lastWaits : last.Waits) :
    |((last.ready : ℚ) - first.ready) - (between.length + 1) * t.interval| ≤ 1 := by
  induction ops generalizing t before with
  | nil => simp [diary,grants] at split
  | cons op rest ih =>
    cases before with
    | nil =>
      have alone : ∀ g ∈ ([] : List Grant), g.Waits := nofun
      have start := grants_due positive slack kept split alone firstWaits
      have all : ∀ g ∈ first :: between, g.Waits := List.forall_mem_cons.mpr ⟨firstWaits,wait⟩
      have shifted : grants (t.diary (op :: rest)) = (first :: between) ++ last :: after := split
      have stop := grants_due positive slack kept shifted all lastWaits
      rw [List.length_nil,Nat.cast_zero,zero_mul,add_zero] at start
      rw [List.length_cons] at stop
      push_cast at stop
      rw [abs_le] at start stop ⊢
      exact ⟨by linarith,by linarith⟩
    | cons earlier before =>
      obtain ⟨more,none | ⟨now,terms,ready,rfl,at_,some⟩⟩ := t.grants_cons op rest kept
      · rw [none] at split
        exact ih positive slack more split
      · rw [some] at split
        exact ih (t := t.issue now) positive slack more (List.cons.inj split).2

end Tickets
end LoadPacing
