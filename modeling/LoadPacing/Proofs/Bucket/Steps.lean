import LoadPacing.Wait

-- What the operations on a bucket can do, and what polls of a wait do at it.
namespace LoadPacing

namespace Bucket

theorem new_ok {rate burst : Binary64} {b : Bucket} (made : new rate burst now = .ok b) :
    rate.Positive ∧ burst.IsFinite ∧ 0 ≤ burst ∧ b = ⟨rate,burst,1,now⟩ := by
  unfold new at made
  split at made
  · cases made
  rename_i flows
  split at made
  · cases made
  rename_i stores
  cases made
  simp only [Decidable.not_not] at flows stores
  exact ⟨flows,stores.1,stores.2,rfl⟩

theorem new_usable {rate burst : Binary64} (flows : rate.Positive) (stores : burst.IsFinite ∧ 0 ≤ burst) :
    new rate burst now = .ok ⟨rate,burst,1,now⟩ := by
  unfold new
  rw [if_neg (not_not_intro flows),if_neg (not_not_intro stores)]

theorem run_append (b : Bucket) (xs ys : List Op) : b.run (xs ++ ys) = (b.run xs).run ys :=
  List.foldl_append

@[simp] theorem run_nil (b : Bucket) : b.run [] = b := rfl

@[simp] theorem run_cons (b : Bucket) (op : Op) (rest : List Op) :
    b.run (op :: rest) = (b.apply op).run rest := rfl

theorem reserve_cases (b : Bucket) (now : Nanos) (terms : Terms) :
    b.reserve now terms = (.overflow,b.refill now) ∨
    b.reserve now terms = (.refused,b.refill now) ∨
    ∃ ready, (b.refill now).readyAt now = some ready ∧
      b.reserve now terms = (.booked ready,(b.refill now).take) := by
  unfold reserve
  cases at_ : (b.refill now).readyAt now with
  | none => exact .inl rfl
  | some ready =>
    dsimp only
    split
    · exact .inr (.inr ⟨ready,rfl,rfl⟩)
    · exact .inr (.inl rfl)

theorem reserve_anyTime (b : Bucket) (now : Nanos) : (b.reserve now .anyTime).1 ≠ .refused := by
  unfold reserve
  split
  · nofun
  · rename_i ready at_
    have accepted : Terms.Accept .anyTime ready := trivial
    rw [if_pos accepted]
    nofun

theorem reserve_rate (b : Bucket) (now : Nanos) (terms : Terms) :
    (b.reserve now terms).2.rate = b.rate := by
  rcases b.reserve_cases now terms with eq | eq | ⟨ready,_,eq⟩ <;> rw [eq] <;> rfl

-- Only a new rate changes the rate.
def Op.Inward : Op → Prop
  | .reserve _ _ | .giveBack _ => True
  | .retune _ => False

theorem run_rate (b : Bucket) (ops : List Op) (inward : ∀ op ∈ ops, op.Inward) :
    (b.run ops).rate = b.rate := by
  induction ops generalizing b with
  | nil => rfl
  | cons op rest ih =>
    have first : (b.apply op).rate = b.rate := by
      cases op with
      | reserve now terms => exact b.reserve_rate now terms
      | giveBack ready => rfl
      | retune rate => cases inward _ List.mem_cons_self
    exact (ih _ fun other member => inward other (List.mem_cons_of_mem op member)).trans first

theorem run_burst (b : Bucket) (ops : List Op) : (b.run ops).burst = b.burst := by
  induction ops generalizing b with
  | nil => rfl
  | cons op rest ih =>
    refine (ih _).trans ?_
    cases op with
    | reserve now terms =>
      show (b.reserve now terms).2.burst = b.burst
      rcases b.reserve_cases now terms with eq | eq | ⟨ready,_,eq⟩ <;> rw [eq] <;> rfl
    | giveBack ready => rfl
    | retune rate =>
      show (b.retune rate).burst = b.burst
      unfold retune
      split <;> rfl

end Bucket

-- Where a handle stands with the gate.
inductive Standing where
  | unpolled
  | pending (ready : Nanos)
  | past
  deriving DecidableEq

def Standing.ops : Standing → List Bucket.Op
  | .pending ready => [.giveBack ready]
  | .unpolled | .past => []

def Wait.standing (w : Wait) : Standing :=
  match w.booked with
  | none => .unpolled
  | some ready => .pending ready

theorem Wait.abandon_standing (w : Wait) : w.abandon = w.standing.ops := by
  unfold abandon standing
  cases w.booked <;> rfl

namespace Wait

def Polled.standing (polled : Polled) : Standing :=
  if polled.outcome = .pending then polled.wait.standing else .past

def Polled.passed (polled : Polled) : Nat := if polled.outcome = .ready then 1 else 0

-- All that a poll can do. The last cases are those of a wait that is past its first poll.
inductive Polling (w : Wait) (now : Nanos) (b : Bucket) : Polled → Prop where
  | overflow (fresh : w.booked = none) (booking : b.reserve now w.terms = (.overflow,after)) :
      Polling w now b ⟨.overflow,w,after,[.reserve now w.terms]⟩
  | refused (fresh : w.booked = none) (booking : b.reserve now w.terms = (.refused,after)) :
      Polling w now b ⟨.failed .timedOut,w,after,[.reserve now w.terms]⟩
  | atOnce (fresh : w.booked = none) (booking : b.reserve now w.terms = (.booked ready,after))
      (due : ready ≤ now ∨ Nanos.Rung ready now) :
      Polling w now b ⟨.ready,w,after,[.reserve now w.terms]⟩
  | cancelledAtOnce (fresh : w.booked = none)
      (booking : b.reserve now w.terms = (.booked ready,after))
      (early : ¬ (ready ≤ now ∨ Nanos.Rung ready now)) (given : w.cancel = .given) :
      Polling w now b
        ⟨.failed .cancelled,w,after.giveBack,[.reserve now w.terms,.giveBack ready]⟩
  | begun (fresh : w.booked = none) (booking : b.reserve now w.terms = (.booked ready,after))
      (early : ¬ (ready ≤ now ∨ Nanos.Rung ready now)) (going : w.cancel ≠ .given) :
      Polling w now b ⟨.pending,{ w with booked := some ready },after,[.reserve now w.terms]⟩
  | woken (held : w.booked = some ready) (due : Nanos.Rung ready now) : Polling w now b ⟨.ready,w,b,[]⟩
  | cancelled (held : w.booked = some ready) (early : ¬ Nanos.Rung ready now)
      (given : w.cancel = .given) :
      Polling w now b ⟨.failed .cancelled,w,b.giveBack,[.giveBack ready]⟩
  | asleep (held : w.booked = some ready) (early : ¬ Nanos.Rung ready now) (going : w.cancel ≠ .given) :
      Polling w now b ⟨.pending,w,b,[]⟩

theorem poll_polling (w : Wait) (now : Nanos) (b : Bucket) : Polling w now b (w.poll now b) := by
  unfold poll
  split
  · rename_i ready held
    split
    · rename_i due; exact .woken held due
    · rename_i early
      unfold hold
      split
      · rename_i given; exact .cancelled held early given
      · rename_i going
        rw [← held]
        exact .asleep held early going
  · rename_i fresh
    dsimp only
    split
    · rename_i booking; exact .overflow fresh booking
    · rename_i booking; exact .refused fresh booking
    · rename_i booking
      split
      · rename_i due; exact .atOnce fresh booking due
      · rename_i early
        unfold hold
        split
        · rename_i given; exact .cancelledAtOnce fresh booking early given
        · rename_i going; exact .begun fresh booking early going

theorem Polling.bucket_eq (polling : Polling w now b polled) : polled.bucket = b.run polled.ops := by
  cases polling with
  | overflow _ booking | refused _ booking | atOnce _ booking | begun _ booking =>
    simp [Bucket.apply,booking]
  | cancelledAtOnce _ booking => simp [Bucket.apply,booking]
  | woken | cancelled | asleep => rfl

theorem Polling.inward (polling : Polling w now b polled) : ∀ op ∈ polled.ops, op.Inward := by
  cases polling <;> simp [Bucket.Op.Inward]

end Wait
end LoadPacing
