import LoadPacing.Proofs.Regulator.Rounds

-- The bounds are looked at first, then the time since the last commit.
namespace LoadPacing.Regulator

-- The rate that a round would set, finite or not; none without a usable reading.
def proposed (r : Regulator) (tuning : Tuning) (samples : List Binary64) : Option Binary64 :=
  (Load.busiest samples).map fun _ => Load.nextRate samples tuning.target r.bucket.rate

def ruling (r : Regulator) (now cooldown : Nanos) (candidate : Binary64) : Verdict :=
  if ¬ candidate.IsFinite then .noSignal
  else if ¬ r.Contains candidate then .outOfBounds candidate
  else match r.cooling now cooldown with
    | some remaining => .coolingDown candidate remaining
    | none => .applied r.current candidate

variable {r later : Regulator} {tuning : Tuning} {now next cooldown remaining : Nanos} {samples : List Binary64}
  {candidate : Binary64}

theorem settle_ruling (r : Regulator) (tuning : Tuning) (now : Nanos) (finite : candidate.IsFinite) :
    (r.settle tuning now candidate).1 = r.ruling now tuning.cooldown candidate := by
  unfold settle ruling
  rw [if_neg (not_not_intro finite)]
  rcases r.commit_cases candidate now tuning.cooldown with
    ⟨outside,eq⟩ | ⟨remaining,inside,cooling,eq⟩ | ⟨inside,lapsed,eq⟩
  · rw [eq,if_pos outside]
  · rw [eq,if_neg (not_not_intro inside),cooling]
  · rw [eq,if_neg (not_not_intro inside),lapsed]

theorem observe_ruling (r : Regulator) (tuning : Tuning) (now : Nanos) (samples : List Binary64) :
    (r.observe tuning now samples).1 =
      ((r.proposed tuning samples).map (r.ruling now tuning.cooldown)).getD .noSignal := by
  unfold observe proposed
  cases Load.busiest samples with
  | none => rfl
  | some busiest =>
    dsimp only [Option.map_some,Option.getD_some]
    by_cases finite : (Load.nextRate samples tuning.target r.bucket.rate).IsFinite
    · rw [if_pos finite]
      exact r.settle_ruling tuning now finite
    · rw [if_neg finite,ruling,if_pos finite]

theorem observe_coolingDown (told : (r.observe tuning now samples).1 = .coolingDown candidate remaining) :
    r.proposed tuning samples = some candidate ∧ candidate.IsFinite ∧ r.Contains candidate ∧
      r.cooling now tuning.cooldown = some remaining := by
  rw [observe_ruling] at told
  cases proposed : r.proposed tuning samples with
  | none => rw [proposed] at told; cases told
  | some rate =>
    rw [proposed,Option.map_some,Option.getD_some,ruling] at told
    split at told
    · cases told
    · split at told
      · cases told
      · rename_i finite inside
        split at told
        · rename_i cooling
          cases told
          exact ⟨rfl,Decidable.not_not.mp finite,Decidable.not_not.mp inside,cooling⟩
        · cases told

theorem observe_outside (now : Nanos) (proposed : r.proposed tuning samples = some candidate)
    (outside : ¬ r.Contains candidate) :
    (r.observe tuning now samples).1 = if candidate.IsFinite then .outOfBounds candidate else .noSignal := by
  rw [observe_ruling,proposed,Option.map_some,Option.getD_some,ruling,ite_not,if_pos outside]

theorem cooling_some (cooling : r.cooling now cooldown = some remaining) :
    ∃ last, r.lastCommit = some last ∧ now - last < cooldown ∧ remaining = cooldown - (now - last) := by
  unfold Regulator.cooling at cooling
  split at cooling
  · cases cooling
  · rename_i last latest
    split at cooling
    · rename_i waiting
      exact ⟨last,latest,waiting,(Option.some.inj cooling).symm⟩
    · cases cooling

-- The clock must not be behind the last commit.
theorem cooling_later (dated : ∀ last, r.lastCommit = some last → last ≤ now) (same : later.lastCommit = r.lastCommit)
    (onward : now ≤ next) (cooling : r.cooling now cooldown = some remaining) :
    later.cooling next cooldown = if remaining ≤ next - now then none else some (remaining - (next - now)) := by
  obtain ⟨last,latest,waiting,rfl⟩ := cooling_some cooling
  have past := dated last latest
  unfold Regulator.cooling
  rw [same,latest]
  dsimp only
  by_cases lapsed : cooldown - (now - last) ≤ next - now
  · have enough : ¬ next - last < cooldown := by lia
    rw [if_neg enough,if_pos lapsed]
  · have short : next - last < cooldown := by lia
    have left : cooldown - (next - last) = cooldown - (now - last) - (next - now) := by lia
    rw [if_pos short,if_neg lapsed,left]

theorem observe_again (dated : ∀ last, r.lastCommit = some last → last ≤ now) (onward : now ≤ next)
    (latest : later.lastCommit = r.lastCommit) (lower : later.lower = r.lower) (upper : later.upper = r.upper)
    (rate : later.bucket.rate = r.bucket.rate)
    (told : (r.observe tuning now samples).1 = .coolingDown candidate remaining) :
    (later.observe tuning next samples).1 =
      if remaining ≤ next - now then .applied later.current candidate
      else .coolingDown candidate (remaining - (next - now)) := by
  obtain ⟨proposed,finite,inside,cooling⟩ := observe_coolingDown told
  have again : later.proposed tuning samples = some candidate := by
    unfold Regulator.proposed
    rw [rate]
    exact proposed
  have within : later.Contains candidate := by
    unfold Contains
    rw [lower,upper]
    exact inside
  rw [observe_ruling,again,Option.map_some,Option.getD_some,ruling,if_neg (not_not_intro finite),
    if_neg (not_not_intro within),cooling_later dated latest onward cooling]
  by_cases lapsed : remaining ≤ next - now
  · rw [if_pos lapsed,if_pos lapsed]
  · rw [if_neg lapsed,if_neg lapsed]

end LoadPacing.Regulator
