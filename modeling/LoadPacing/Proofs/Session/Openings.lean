import LoadPacing.Proofs.Regulator.Rounds
import LoadPacing.Session.Start

-- What a session is when it is opened, in whichever way.
namespace LoadPacing.Session
variable {s : Session α} {settings shared : Settings}

def Fresh (s : Session α) : Prop :=
  s.handles = [] ∧ ∃ rate burst, Bucket.new rate burst s.now = .ok s.regulator.bucket

-- Opened on a regulator of its own with these settings.
def Regulated (settings : Settings) (s : Session α) : Prop :=
  s.handles = [] ∧ Regulator.new settings s.now = .ok s.regulator

theorem gate_opened {rate burst : Binary64} (flows : rate.Positive) (stores : burst.IsFinite ∧ 0 ≤ burst) :
    gate rate burst = .ok (⟨0,⟨rate,rate,rate,none,⟨rate,burst,1,0⟩⟩,.of .default,[],[],0,0⟩ : Session α) := by
  unfold gate
  rw [Bucket.new_usable flows stores]

theorem gate_fresh (opened : gate rate burst = .ok s) : s.Fresh := by
  unfold gate at opened
  split at opened
  · cases opened
  · rename_i bucket made
    cases opened
    exact ⟨rfl,rate,burst,made⟩

theorem regulated_fresh (regulated : Regulated settings s) : s.Fresh := by
  obtain ⟨handles,made⟩ := regulated
  obtain ⟨sound,regulator⟩ := Regulator.new_ok made
  have flows := Binary64.positive_of_within sound.lower sound.upper sound.initial
  refine ⟨handles,settings.initialRate,settings.maxBurst,?_⟩
  rw [regulator]
  exact Bucket.new_usable flows ⟨sound.burst,sound.burst_stores⟩

theorem ofLayer_regulated (opened : ofLayer settings = .ok s) : Regulated settings s := by
  unfold ofLayer Tuning.fresh at opened
  cases made : Regulator.new settings 0 with
  | error fault => simp [made] at opened
  | ok regulator =>
    simp only [made] at opened
    cases opened
    exact ⟨rfl,made⟩

theorem ofLayerOver_regulated (opened : ofLayerOver shared settings = .ok s) : Regulated shared s := by
  unfold ofLayerOver at opened
  cases made : Regulator.new shared 0 with
  | error fault => simp [made] at opened
  | ok regulator =>
    simp only [made] at opened
    split at opened
    · cases opened
    · cases opened
      exact ⟨rfl,made⟩

theorem ofService_regulated (opened : ofService settings = .ok s) : Regulated settings s := by
  unfold ofService Service.new Service.regulatorFor at opened
  cases made : Regulator.new settings 0 with
  | error fault => simp [made] at opened
  | ok regulator =>
    have sound := (Regulator.new_ok made).1
    simp only [made,sound.validate] at opened
    cases opened
    exact ⟨rfl,made⟩

theorem ofServiceOver_regulated (opened : ofServiceOver shared settings = .ok s) : Regulated shared s := by
  unfold ofServiceOver Service.new Service.regulatorFor at opened
  cases made : Regulator.new shared 0 with
  | error fault => simp [made] at opened
  | ok regulator =>
    simp only [made] at opened
    cases valid : settings.validate with
    | error fault => simp [valid] at opened
    | ok =>
      simp only [valid] at opened
      cases opened
      exact ⟨rfl,made⟩

theorem opened_fresh
    (opened : gate rate burst = .ok s ∨ ofLayer settings = .ok s ∨ ofLayerOver shared settings = .ok s ∨
      ofService settings = .ok s ∨ ofServiceOver shared settings = .ok s) : s.Fresh := by
  rcases opened with gated | layer | layerOver | service | serviceOver
  · exact gate_fresh gated
  · exact regulated_fresh (ofLayer_regulated layer)
  · exact regulated_fresh (ofLayerOver_regulated layerOver)
  · exact regulated_fresh (ofService_regulated service)
  · exact regulated_fresh (ofServiceOver_regulated serviceOver)

end LoadPacing.Session
