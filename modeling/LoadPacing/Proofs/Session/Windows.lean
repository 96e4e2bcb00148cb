import LoadPacing.Proofs.Regulator.Rulings
import LoadPacing.Proofs.Session.Omission
import LoadPacing.Proofs.Session.Staff

-- The clock is never behind the last commit, and a round that is run again later is the same round.
namespace LoadPacing.Session
variable {s middle after : Session α} {number : Nat} {service : Service} {chosen : Option Nat} {tuning : Tuning}

def Dated (s : Session α) : Prop := ∀ last, s.regulator.lastCommit = some last → last ≤ s.now

theorem move_dated (dated : s.Dated) (move : Move s trace after) : after.Dated := by
  have effect := move.effect
  unfold Dated
  rw [move.now_eq]
  generalize trace.ops = ops at effect
  generalize trace.verdicts = verdicts at effect
  generalize after.regulator = changed at effect ⊢
  cases effect with
  | operated inward => exact dated
  | settled settled =>
    rcases settled with ⟨rate,_,_,rfl⟩ | ⟨_,rfl⟩
    · intro last latest
      cases latest
      exact Nat.le_refl _
    · exact dated

theorem moves_dated (dated : s.Dated) (moves : Moves Move s trace after) : after.Dated :=
  moves.holds dated fun move dated => move_dated dated move

theorem step_dated (dated : s.Dated) (action : Action α) : (s.step action).2.1.Dated := by
  rcases (s.step_stepped action).moves with ⟨rate,_,after,_⟩ | ⟨_,middle,now,moves,later,after⟩
  · rw [after]
    exact dated
  · rw [after]
    intro last latest
    have past := moves_dated dated moves last latest
    rw [moves.now_eq] at past
    exact Nat.le_trans past later

theorem run_dated (dated : s.Dated) (actions : List (Action α)) : (s.run actions).2.Dated :=
  run_always dated (fun action dated => step_dated dated action) actions

theorem new_dated (made : Regulator.new settings s.now = .ok s.regulator) : s.Dated := by
  obtain ⟨_,opened⟩ := Regulator.new_ok made
  intro last latest
  rw [opened] at latest
  cases latest

theorem step_onward (s : Session α) (action : Action α) : s.now ≤ (s.step action).2.1.now := by
  rcases (s.step_stepped action).moves with ⟨rate,_,after,_⟩ | ⟨_,middle,now,_,later,after⟩
  · rw [after]
    exact Nat.le_refl _
  · rw [after]
    exact later

theorem run_onward (s : Session α) (actions : List (Action α)) : s.now ≤ (s.run actions).2.now :=
  run_always (P := fun later => s.now ≤ later.now) (Nat.le_refl _)
    (fun action past => Nat.le_trans past (step_onward _ action)) actions

theorem Move.tuning_eq (move : Move s trace after) : after.tuning = s.tuning := by
  cases move with
  | aside move => cases move <;> rfl
  | release | start => rfl
  | pollWait => unfold pollGate; dsimp only; split <;> rfl
  | pollCall => unfold pollCallGate pollGate; dsimp only; split <;> rfl

theorem Moves.tuning_eq (moves : Moves Move s trace after) : after.tuning = s.tuning := moves.keeps Move.tuning_eq

theorem step_tuning (s : Session α) (action : Action α) : (s.step action).2.1.tuning = s.tuning := by
  rcases (s.step_stepped action).moves with ⟨rate,_,after,_⟩ | ⟨_,middle,now,moves,_,after⟩
  · rw [after]
    rfl
  · rw [after]
    exact moves.tuning_eq

theorem step_serviceTuning (action : Action α) (found : s.services[number]? = some service) :
    ((s.step action).2.1.services[number]?).map Service.tuning = some service.tuning := by
  have inside : number < s.services.length := (List.getElem?_eq_some_iff.mp found).1
  have staffing := s.step_staffing action
  generalize (s.step action).2.1 = after at staffing ⊢
  generalize staff : after.staff = next at staffing
  have services : after.services = next.1 := congrArg Prod.fst staff
  rw [services]
  -- A service that is polled or called is exchanged for one of the same tuning.
  have exchanged {other : Nat} {old new : Service} (here : s.services[other]? = some old) (same : new.tuning = old.tuning) :
      ((s.services.set other new)[number]?).map Service.tuning = some service.tuning := by
    by_cases equal : other = number
    · subst equal
      rw [found] at here
      cases here
      rw [List.getElem?_set_self inside,Option.map_some,same]
    · rw [List.getElem?_set_ne equal,found,Option.map_some]
  cases staffing with
  | kept | unused => exact congrArg (Option.map Service.tuning) found
  | joined => rw [List.getElem?_append_left inside,found,Option.map_some]
  | polled here => exact exchanged here (pollReady_holds _ _).tuning
  | called here => exact exchanged here rfl

theorem step_tuningOf (action : Action α) (known : s.tuningOf chosen = some tuning) :
    (s.step action).2.1.tuningOf chosen = some tuning := by
  cases chosen with
  | none =>
    unfold tuningOf at known ⊢
    rw [step_tuning]
    exact known
  | some number =>
    obtain ⟨service,found,rfl⟩ := Option.map_eq_some_iff.mp known
    exact step_serviceTuning action found

theorem run_tuningOf (actions : List (Action α)) (known : s.tuningOf chosen = some tuning) :
    (s.run actions).2.tuningOf chosen = some tuning :=
  run_always (P := fun later => later.tuningOf chosen = some tuning) known (fun action known => step_tuningOf action known)
    actions

theorem step_observe (samples : List Binary64) (known : s.tuningOf chosen = some tuning) :
    (s.step (.observe chosen samples)).1 = .verdict (s.regulator.observe tuning s.now samples).1 := by
  unfold step
  dsimp only
  rw [known]
  rfl

section Repeated
variable {settings : Settings} {log : List Change} {samples : List Binary64} {candidate : Binary64} {remaining : Nanos}
  (sound : settings.Sound) (follows : s.regulator.Follows settings log) (known : s.tuningOf chosen = some tuning)
  (between : List (Action α)) (rate : (s.run between).2.regulator.bucket.rate = s.regulator.bucket.rate)
include sound follows known rate

theorem observe_after (dated : s.Dated) (uncommitted : Change.adjustments (s.changes between) = [])
    (told : (s.regulator.observe tuning s.now samples).1 = .coolingDown candidate remaining) :
    ((s.run between).2.step (.observe chosen samples)).1 = .verdict
      (if remaining ≤ (s.run between).2.now - s.now then .applied s.regulator.current candidate
        else .coolingDown candidate (remaining - ((s.run between).2.now - s.now))) := by
  have later := later_follows sound follows between
  have log' : Change.adjustments (log ++ s.changes between) = Change.adjustments log := by
    rw [Change.adjustments_append,uncommitted,List.append_nil]
  have latest : (s.run between).2.regulator.lastCommit = s.regulator.lastCommit := by
    rw [later.lastCommit,log',follows.lastCommit]
  have current : (s.run between).2.regulator.current = s.regulator.current := by
    rw [later.current,log',follows.current]
  rw [step_observe samples (run_tuningOf between known),
    Regulator.observe_again dated (s.run_onward between) latest (later.lower.trans follows.lower.symm)
      (later.upper.trans follows.upper.symm) rate told,current]

theorem observe_outside_after (proposed : s.regulator.proposed tuning samples = some candidate)
    (outside : ¬ s.regulator.Contains candidate) :
    ((s.run between).2.step (.observe chosen samples)).1 =
      .verdict (if candidate.IsFinite then .outOfBounds candidate else .noSignal) := by
  have later := later_follows sound follows between
  have again : (s.run between).2.regulator.proposed tuning samples = some candidate := by
    unfold Regulator.proposed
    rw [rate]
    exact proposed
  have beyond : ¬ (s.run between).2.regulator.Contains candidate := by
    unfold Regulator.Contains
    rw [later.lower,later.upper,← follows.lower,← follows.upper]
    exact outside
  rw [step_observe samples (run_tuningOf between known),Regulator.observe_outside _ again beyond]

end Repeated

-- The same round is applied once the remaining time has passed, without a commit in between and at the same rate.
theorem remaining_cooldown_exact (made : Regulator.new settings s.now = .ok s.regulator) (actions : List (Action α))
    (samples : List Binary64) (known : (s.run actions).2.tuningOf chosen = some tuning) :
    let found := (s.run actions).2
    let heard := found.step (.observe chosen samples)
    (∀ candidate remaining, heard.1 = .verdict (.coolingDown candidate remaining) →
      0 < remaining ∧ remaining ≤ tuning.cooldown ∧
      ∀ between, let later := (heard.2.1.run between).2
        Change.adjustments (heard.2.1.changes between) = [] →
        later.regulator.bucket.rate = found.regulator.bucket.rate →
        let passed := later.now - found.now
        found.now ≤ later.now ∧ (later.step (.observe chosen samples)).1 = .verdict
          (if remaining ≤ passed then .applied found.regulator.current candidate
            else .coolingDown candidate (remaining - passed))) ∧
    (∀ candidate, found.regulator.proposed tuning samples = some candidate → ¬ found.regulator.Contains candidate →
      let ruled : Answer α := .verdict (if candidate.IsFinite then .outOfBounds candidate else .noSignal)
      heard.1 = ruled ∧ ∀ between, let later := (heard.2.1.run between).2
        later.regulator.bucket.rate = found.regulator.bucket.rate →
        (later.step (.observe chosen samples)).1 = ruled) := by
  intro found heard
  have sound := (Regulator.new_ok made).1
  have follows := run_follows made actions
  have here : heard.1 = .verdict (found.regulator.observe tuning found.now samples).1 := step_observe samples known
  -- A round that is turned away leaves the session as it was.
  have still {verdict : Verdict} (told : heard.1 = .verdict verdict) (unapplied : verdict.isApplied = false) :
      heard.2.1 = found :=
    unapplied_same ⟨rfl,by show heard.1.verdict?.map _ = _; rw [told]; exact congrArg some unapplied⟩
  refine ⟨?_,?_⟩
  · intro candidate remaining told
    have round := Answer.verdict.inj (here.symm.trans told)
    obtain ⟨_,_,_,cooling⟩ := Regulator.observe_coolingDown round
    obtain ⟨last,_,waiting,left⟩ := Regulator.cooling_some cooling
    refine ⟨by lia,by lia,?_⟩
    rw [still told rfl]
    intro between later uncommitted rate passed
    exact ⟨found.run_onward between,
      observe_after sound follows known between rate (run_dated (new_dated made) actions) uncommitted round⟩
  · intro candidate proposed outside ruled
    have told : heard.1 = ruled := observe_outside_after sound follows known [] rfl proposed outside
    have unapplied : (if candidate.IsFinite then Verdict.outOfBounds candidate else .noSignal).isApplied = false := by
      split <;> rfl
    rw [still told unapplied]
    exact ⟨told,fun between rate => observe_outside_after sound follows known between rate proposed outside⟩

-- The rate is set from outside in between, and set back.
theorem remaining_cooldown_exact_fifty_seconds :
    let opened : Session Unit := withService ⟨.fresh 0,.of .default⟩ ⟨10,100000,10000,none,⟨10000,1,1,0⟩⟩
    let before : List (Action Unit) := [.observe none [35],.advance (10 * Nanos.perSecond)]
    let between : List (Action Unit) := [.advance (20 * Nanos.perSecond),.setRate 400,.setRate 20000]
    let round : Action Unit := .observe (some 0) [35]
    let heard := (opened.run before).2.step round
    let soon := (heard.2.1.run between).2
    let later := (heard.2.1.run (between ++ [.advance (30 * Nanos.perSecond)])).2
    heard.1 = .verdict (.coolingDown 40000 (50 * Nanos.perSecond)) ∧
    (soon.step round).1 = .verdict (.coolingDown 40000 (30 * Nanos.perSecond)) ∧
    (later.step round).1 = .verdict (.applied 20000 40000) ∧
    ((opened.run before).2.step (.observe (some 0) [1])).1 = .verdict (.outOfBounds 1400000) := by
  intro opened before between round heard soon later
  have made : Regulator.new .default opened.now = .ok opened.regulator := Regulator.new_sound Settings.default_sound
  have known : (opened.run before).2.tuningOf (some 0) = some (.of .default) := by decide +kernel
  have told : heard.1 = .verdict (.coolingDown 40000 (50 * Nanos.perSecond)) :=
    (step_observe [35] known).trans (congrArg Answer.verdict (by decide +kernel))
  obtain ⟨_,_,again⟩ := (remaining_cooldown_exact made before [35] known).1 _ _ told
  obtain ⟨_,waits⟩ := again between (by decide +kernel) (by decide +kernel)
  obtain ⟨_,applies⟩ := again (between ++ [.advance (30 * Nanos.perSecond)]) (by decide +kernel) (by decide +kernel)
  have beyond := (remaining_cooldown_exact made before [1] known).2 1400000 (by decide +kernel) (by decide +kernel)
  exact ⟨told,waits.trans (congrArg Answer.verdict (by decide +kernel)),
    applies.trans (congrArg Answer.verdict (by decide +kernel)),
    beyond.1.trans (congrArg Answer.verdict (by decide +kernel))⟩

-- A candidate past the finite numbers is outside all bounds, too.
theorem infinite_candidate_no_signal :
    ∃ opened : Session Unit, ofLayer .default = .ok opened ∧
      let tiny := Binary64.ofDecimal false 1 (-304)
      ∃ candidate, opened.regulator.proposed opened.tuning [tiny] = some candidate ∧
        ¬ opened.regulator.Contains candidate ∧
        (opened.step (.observe none [tiny])).1 ≠ .verdict (.outOfBounds candidate) := by
  let opened : Session Unit := withService ⟨.fresh 0,.of .default⟩ ⟨10,100000,10000,none,⟨10000,1,1,0⟩⟩
  have layer : ofLayer .default = .ok opened := by
    unfold ofLayer Tuning.fresh
    rw [Regulator.new_sound Settings.default_sound]
    rfl
  refine ⟨opened,layer,.infinite false,by decide +kernel,by decide +kernel,?_⟩
  rw [step_observe _ rfl]
  intro told
  exact absurd (Answer.verdict.inj told) (by decide +kernel)

end LoadPacing.Session
