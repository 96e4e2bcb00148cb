import LoadPacing.Proofs.Session.Openings
import LoadPacing.Proofs.Settings.Checks
import LoadPacing.Session.Step

-- All that is made from settings looks at them alike.
namespace LoadPacing

-- The regulator that settings describe, without a look at them.
def Settings.regulator (s : Settings) (now : Nanos) : Regulator :=
  ⟨s.lowerBound,s.upperBound,s.initialRate,none,⟨s.initialRate,s.maxBurst,1,now⟩⟩

section Constructors
variable (s : Settings) (now : Nanos)

theorem Regulator.new_checked : Regulator.new s now = s.validate.map fun _ => s.regulator now := by
  cases valid : s.validate with
  | ok => exact new_sound (Settings.validate_ok valid)
  | error fault =>
    unfold Regulator.new
    rw [valid]
    rfl

theorem Bucket.new_checked :
    (s.validate.bind fun _ => Bucket.new s.initialRate s.maxBurst now) =
      s.validate.map fun _ => (s.regulator now).bucket := by
  cases valid : s.validate with
  | ok =>
    have sound := Settings.validate_ok valid
    have flows := Binary64.positive_of_within sound.lower sound.upper sound.initial
    exact Bucket.new_usable flows ⟨sound.burst,sound.burst_stores⟩
  | error fault => rfl

theorem Tuning.fresh_checked : Tuning.fresh s now = s.validate.map fun _ => (.of s,s.regulator now) := by
  unfold Tuning.fresh
  rw [Regulator.new_checked]
  cases s.validate <;> rfl

theorem Tuning.over_checked : Tuning.over s = s.validate.map fun _ => .of s := by
  unfold Tuning.over
  cases s.validate <;> rfl

theorem Service.new_checked (backend : Backend) (shared : Option Regulator) :
    Service.new backend s shared now = s.validate.map fun _ => (⟨backend,.of s⟩,shared.getD (s.regulator now)) := by
  unfold Service.new Service.regulatorFor
  cases shared with
  | none =>
    rw [Regulator.new_checked]
    cases s.validate <;> rfl
  | some regulator => cases s.validate <;> rfl

end Constructors

namespace Session
variable (settings shared : Settings)

def opening (settings : Settings) (regulator : Regulator) : Session α :=
  withService ⟨.fresh 0,.of settings⟩ regulator

theorem ofLayer_checked :
    ofLayer settings = settings.validate.map fun _ => (opening settings (settings.regulator 0) : Session α) := by
  unfold ofLayer
  rw [Tuning.fresh_checked]
  cases settings.validate <;> rfl

theorem ofService_checked :
    ofService settings = settings.validate.map fun _ => (opening settings (settings.regulator 0) : Session α) := by
  unfold ofService
  rw [Service.new_checked]
  cases settings.validate <;> rfl

theorem ofLayerOver_checked :
    ofLayerOver shared settings =
      shared.validate.bind fun _ => settings.validate.map fun _ =>
        (opening settings (shared.regulator 0) : Session α) := by
  unfold ofLayerOver
  rw [Regulator.new_checked,Tuning.over_checked]
  cases shared.validate <;> cases settings.validate <;> rfl

theorem ofServiceOver_checked :
    ofServiceOver shared settings =
      shared.validate.bind fun _ => settings.validate.map fun _ =>
        (opening settings (shared.regulator 0) : Session α) := by
  unfold ofServiceOver
  rw [Regulator.new_checked]
  cases shared.validate with
  | error fault => rfl
  | ok =>
    simp only [Except.map,Except.bind,Service.new_checked]
    cases settings.validate <;> rfl

-- The settings reach the new service alone: bounds, rate and bucket are the session's.
structure Joined (s : Session α) (settings : Settings) (ran : Result α (Answer α)) : Prop where
  answer : ran.1 = match settings.validate with
    | .ok () => .count s.services.length
    | .error fault => .fault fault
  services : ran.2.1.services = s.services ++ match settings.validate with
    | .ok () => [⟨.fresh s.instances,.of settings⟩]
    | .error _ => []
  regulator : ran.2.1.regulator = s.regulator
  silent : ran.2.2 = .none

theorem shareService_joined (s : Session α) : s.Joined settings (s.step (.shareService settings)) := by
  unfold step
  dsimp only
  rw [Service.new_checked]
  cases valid : settings.validate with
  | error fault => exact ⟨by rw [valid]; rfl,by rw [valid]; exact (List.append_nil _).symm,rfl,rfl⟩
  | ok => exact ⟨by rw [valid]; rfl,by rw [valid]; rfl,rfl,rfl⟩

theorem shareLayer_joined (s : Session α) : s.Joined settings (s.step (.shareLayer settings)) := by
  unfold step
  dsimp only
  rw [Tuning.over_checked]
  cases valid : settings.validate with
  | error fault => exact ⟨by rw [valid]; rfl,by rw [valid]; exact (List.append_nil _).symm,rfl,rfl⟩
  | ok => exact ⟨by rw [valid]; rfl,by rw [valid]; rfl,rfl,rfl⟩

end Session

-- On its own each way objects as the checks do; over a given regulator that one is used as it is.
theorem Settings.checked_alike (s : Settings) :
    (s.validate = .ok () ↔ ∀ requirement : Requirement, requirement.Met s) ∧
    (s.validate = match s.firstUnmet with
      | none => .ok ()
      | some unmet => .error (unmet.fault s)) ∧
    (∀ now,
      Regulator.new s now = (s.validate.map fun _ => s.regulator now) ∧
      Tuning.fresh s now = (s.validate.map fun _ => (.of s,s.regulator now)) ∧
      (∀ backend, Service.new backend s none now = s.validate.map fun _ => (⟨backend,.of s⟩,s.regulator now)) ∧
      (s.validate.bind fun _ => Bucket.new s.initialRate s.maxBurst now) =
        s.validate.map fun _ => (s.regulator now).bucket) ∧
    (Tuning.over s = s.validate.map fun _ => .of s) ∧
    (∀ backend regulator now,
      Service.new backend s (some regulator) now = s.validate.map fun _ => (⟨backend,.of s⟩,regulator)) ∧
    (∀ α : Type,
      let alone : Except Fault (Session α) := s.validate.map fun _ => Session.opening s (s.regulator 0)
      Session.ofLayer s = alone ∧ Session.ofService s = alone) ∧
    (∀ (α : Type) (shared : Settings),
      let both : Except Fault (Session α) :=
        shared.validate.bind fun _ => s.validate.map fun _ => Session.opening s (shared.regulator 0)
      Session.ofLayerOver shared s = both ∧ Session.ofServiceOver shared s = both) ∧
    ∀ (α : Type) (session : Session α),
      session.Joined s (session.step (.shareService s)) ∧ session.Joined s (session.step (.shareLayer s)) := by
  refine ⟨validate_accepts,s.validate_first,?_,Tuning.over_checked s,?_,?_,?_,?_⟩
  · intro now
    exact ⟨Regulator.new_checked s now,Tuning.fresh_checked s now,
      fun backend => Service.new_checked s now backend none,Bucket.new_checked s now⟩
  · exact fun backend regulator now => Service.new_checked s now backend (some regulator)
  · exact fun _ => ⟨Session.ofLayer_checked s,Session.ofService_checked s⟩
  · exact fun _ shared => ⟨Session.ofLayerOver_checked s shared,Session.ofServiceOver_checked s shared⟩
  · exact fun _ session => ⟨Session.shareService_joined s session,Session.shareLayer_joined s session⟩

end LoadPacing
