import LoadPacing.Proofs.Binary64.Order
import LoadPacing.Proofs.Bucket.Steps
import LoadPacing.Regulator

-- All that opening a regulator, a commit and a control round can do.
namespace LoadPacing

structure Settings.Sound (s : Settings) : Prop where
  lower : s.lowerBound.Positive
  upper : s.upperBound.Positive
  ordered : ¬ s.upperBound ≤ s.lowerBound
  initial : Settings.Within s.lowerBound s.upperBound s.initialRate
  target : s.targetLoad.Positive
  targetMost : ¬ 100 < s.targetLoad
  burst : s.maxBurst.IsFinite
  burstLeast : ¬ s.maxBurst < 0

theorem Settings.validate_ok (valid : Settings.validate s = .ok ()) : s.Sound := by
  unfold Settings.validate at valid
  split at valid
  · cases valid
  rename_i bounds
  split at valid
  · cases valid
  rename_i initial
  split at valid
  · cases valid
  rename_i target
  split at valid
  · cases valid
  rename_i burst
  simp only [not_or,Decidable.not_not] at bounds initial target burst
  exact ⟨bounds.1,bounds.2.1,bounds.2.2,initial,target.1,target.2,burst.1,burst.2⟩

theorem Settings.Sound.validate (sound : Sound s) : s.validate = .ok () := by
  unfold Settings.validate
  rw [if_neg,if_neg,if_neg,if_neg]
  · rintro (infinite | negative)
    · exact infinite sound.burst
    · exact sound.burstLeast negative
  · rintro (stuck | beyond)
    · exact stuck sound.target
    · exact sound.targetMost beyond
  · exact not_not_intro sound.initial
  · rintro (stuck | stuck | crossed)
    · exact stuck sound.lower
    · exact stuck sound.upper
    · exact sound.ordered crossed

theorem Settings.Sound.burst_stores (sound : Sound s) : 0 ≤ s.maxBurst :=
  Binary64.le_of_not_lt (Binary64.finite_ne_nan Binary64.zero_finite) (Binary64.finite_ne_nan sound.burst) sound.burstLeast

theorem Settings.default_sound : Settings.default.Sound := by
  constructor <;> decide +kernel

theorem Verdict.ops_unapplied {verdict : Verdict} (unapplied : verdict.isApplied = false) : verdict.ops = [] := by
  cases verdict with
  | applied previous current => cases unapplied
  | noSignal | outOfBounds | coolingDown => rfl

namespace Regulator

theorem new_sound (sound : settings.Sound) :
    Regulator.new settings now = .ok ⟨settings.lowerBound,settings.upperBound,settings.initialRate,none,
      ⟨settings.initialRate,settings.maxBurst,1,now⟩⟩ := by
  have flows := Binary64.positive_of_within sound.lower sound.upper sound.initial
  have stores := sound.burst_stores
  unfold Regulator.new
  rw [sound.validate,Bucket.new_usable flows ⟨sound.burst,stores⟩]

theorem new_ok (made : Regulator.new settings now = .ok r) :
    settings.Sound ∧ r = ⟨settings.lowerBound,settings.upperBound,settings.initialRate,none,
      ⟨settings.initialRate,settings.maxBurst,1,now⟩⟩ := by
  unfold Regulator.new at made
  split at made
  · cases made
  rename_i valid
  split at made
  · cases made
  rename_i bucket opened
  cases made
  obtain ⟨_,_,_,rfl⟩ := Bucket.new_ok opened
  exact ⟨Settings.validate_ok valid,rfl⟩

@[simp] theorem adopt_lastCommit (r : Regulator) (rate : Binary64) (now : Nanos) :
    (r.adopt rate now).lastCommit = some now := rfl

theorem commit_cases (r : Regulator) (candidate : Binary64) (now cooldown : Nanos) :
    (¬ r.Contains candidate ∧ r.commit candidate now cooldown = (.outOfBounds,r)) ∨
    (∃ remaining, r.Contains candidate ∧ r.cooling now cooldown = some remaining ∧
      r.commit candidate now cooldown = (.coolingDown remaining,r)) ∨
    (r.Contains candidate ∧ r.cooling now cooldown = none ∧
      r.commit candidate now cooldown = (.committed r.current,r.adopt candidate now)) := by
  unfold commit
  by_cases inside : r.Contains candidate
  · cases cooling : r.cooling now cooldown with
    | none => exact .inr (.inr ⟨inside,rfl,by simp [inside]⟩)
    | some remaining => exact .inr (.inl ⟨remaining,inside,rfl,by simp [inside]⟩)
  · exact .inl ⟨inside,by simp [inside]⟩

-- A round applies one rate within the bounds, or leaves everything as it is.
def Settled (r : Regulator) (now : Nanos) (verdict : Verdict) (after : Regulator) : Prop :=
  (∃ rate, r.Contains rate ∧ verdict = .applied r.current rate ∧ after = r.adopt rate now) ∨
  (verdict.isApplied = false ∧ after = r)

theorem settle_settled (r : Regulator) (tuning : Tuning) (now : Nanos) (candidate : Binary64) :
    r.Settled now (r.settle tuning now candidate).1 (r.settle tuning now candidate).2.1 := by
  unfold settle
  rcases r.commit_cases candidate now tuning.cooldown with ⟨_,eq⟩ | ⟨_,_,_,eq⟩ | ⟨inside,_,eq⟩
  · rw [eq]; exact .inr ⟨rfl,rfl⟩
  · rw [eq]; exact .inr ⟨rfl,rfl⟩
  · rw [eq]; exact .inl ⟨candidate,inside,rfl,rfl⟩

theorem observe_settled (r : Regulator) (tuning : Tuning) (now : Nanos) (samples : List Binary64) :
    r.Settled now (r.observe tuning now samples).1 (r.observe tuning now samples).2.1 := by
  unfold observe
  split
  · exact .inr ⟨rfl,rfl⟩
  · dsimp only
    split
    · exact r.settle_settled tuning now _
    · exact .inr ⟨rfl,rfl⟩

inductive Round (r : Regulator) (now : Nanos) : Verdict × Regulator × List Notice → Prop where
  | observe (tuning : Tuning) (samples : List Binary64) : Round r now (r.observe tuning now samples)
  | deadline (tuning : Tuning) : Round r now (r.observeDeadline tuning now)
  | hear (tuning : Tuning) (signal : Signal) : Round r now (r.hear tuning now signal)

theorem Round.settled (ran : Round r now outcome) : r.Settled now outcome.1 outcome.2.1 := by
  cases ran with
  | observe tuning samples => exact r.observe_settled tuning now samples
  | deadline tuning => exact r.observe_settled tuning now _
  | hear tuning signal =>
    cases signal with
    | response report => exact r.observe_settled tuning now _
    | deadline => exact r.observe_settled tuning now _

end Regulator
end LoadPacing
