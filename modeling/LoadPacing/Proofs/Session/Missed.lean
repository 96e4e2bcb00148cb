import LoadPacing.Proofs.Regulator.Readings
import LoadPacing.Proofs.Session.Control
import LoadPacing.Proofs.Session.Hearings

-- A missed deadline is read as a fixed load, and so raises no rate unless the target is above that load.
namespace LoadPacing

theorem Change.ofRounds_inside (now : Nanos) (verdicts : List Verdict) (rate : Binary64) :
    .outside rate ∉ ofRounds now verdicts := by
  intro member
  obtain ⟨verdict,_,told⟩ := List.mem_filterMap.mp member
  cases verdict <;> cases told

theorem latestRate_lowered {initial top : Binary64} {adjustments : List Adjustment} (least : initial ≤ top)
    (chained : Chained initial adjustments)
    (lowered : ∀ adjustment ∈ adjustments, adjustment.current ≤ adjustment.previous) :
    latestRate initial adjustments ≤ top := by
  induction adjustments generalizing initial with
  | nil => exact least
  | cons adjustment later ih =>
    obtain ⟨from_,rest⟩ := chained
    obtain ⟨first,others⟩ := List.forall_mem_cons.mp lowered
    rw [from_] at first
    rw [latestRate_cons]
    exact ih (Binary64.le_trans first least) rest others

namespace Regulator
variable {settings : Settings} {r : Regulator} {tuning : Tuning} {now : Nanos} {rate : Binary64}

-- A regulator whose rate nobody has set from outside.
def Untouched (settings : Settings) (r : Regulator) : Prop :=
  ∃ log, r.Follows settings log ∧ ∀ rate, .outside rate ∉ log

theorem Untouched.tuned (untouched : r.Untouched settings) : r.bucket.rate.Positive ∧ r.bucket.rate = r.current := by
  obtain ⟨log,follows,inside⟩ := untouched
  refine ⟨follows.flows,follows.tuned ?_⟩
  rintro ⟨rate,last⟩
  exact inside rate (List.mem_of_getLast? last)

theorem Untouched.settled {changed : Regulator} {verdict : Verdict} (sound : settings.Sound)
    (untouched : r.Untouched settings) (settled : r.Settled now verdict changed) : changed.Untouched settings := by
  obtain ⟨log,follows,inside⟩ := untouched
  refine ⟨_,follows_settled sound follows settled,?_⟩
  exact fun rate => List.not_mem_append (inside rate) (Change.ofRounds_inside now [verdict] rate)

theorem Settled.previous_eq {after : Regulator} {previous : Binary64}
    (settled : r.Settled now (.applied previous rate) after) : previous = r.current := by
  rcases settled with ⟨_,_,told,_⟩ | ⟨kept,_⟩
  · exact (Verdict.applied.inj told).1
  · cases kept

section Deadline
variable (sound : settings.Sound) (untouched : r.Untouched settings) (aimed : tuning.target.Positive)
  (most : tuning.target ≤ Load.overload)
include untouched aimed most

theorem deadline_applied (applied : (r.observeDeadline tuning now).1 = .applied previous rate) : rate ≤ previous := by
  have largest : Load.Largest [Load.overload] Load.overload := Load.largest_one (by decide +kernel)
  have told : (r.observe tuning now [Load.overload]).1 = .applied previous rate := applied
  have settled := r.observe_settled tuning now [Load.overload]
  have candidate := r.observe_candidate tuning now largest
  obtain ⟨flows,same⟩ := untouched.tuned
  have lowered := Load.law_le largest.usable aimed flows most
  rw [told] at candidate settled
  rw [settled.previous_eq,← same]
  dsimp only [Verdict.candidate] at candidate
  split at candidate
  · cases candidate
    exact lowered
  · cases candidate

include sound

theorem deadline_lowers (now : Nanos) :
    let after := (r.observeDeadline tuning now).2.1
    after.current ≤ r.current ∧ after.bucket.rate ≤ r.bucket.rate := by
  intro after
  have settled := r.observe_settled tuning now [Load.overload]
  have tuned := (untouched.settled sound settled).tuned
  obtain ⟨flows,same⟩ := untouched.tuned
  have lowered : after.current ≤ r.current := by
    rcases settled with ⟨rate,_,applied,adopted⟩ | ⟨_,kept⟩
    · have current : after.current = rate := congrArg Regulator.current adopted
      rw [current]
      exact deadline_applied untouched aimed most applied
    · have current : after.current = r.current := congrArg Regulator.current kept
      rw [current,← same]
      exact Binary64.le_refl_finite flows.1
  refine ⟨lowered,?_⟩
  rw [same]
  exact tuned.2 ▸ lowered

end Deadline
end Regulator

-- A deadline was missed, with a target no higher than what that is read as.
def Hearing.Missed (h : Hearing) : Prop :=
  h.stimulus = .deadline ∧ h.tuning.target.Positive ∧ h.tuning.target ≤ Load.overload

instance (h : Hearing) : Decidable h.Missed := inferInstanceAs (Decidable (_ ∧ _ ∧ _))

theorem Hearing.missed_applied {settings : Settings} {h : Hearing} (untouched : h.regulator.Untouched settings)
    (missed : h.Missed) (applied : h.verdict = .applied previous rate) : rate ≤ previous := by
  obtain ⟨deadline,aimed,most⟩ := missed
  unfold verdict outcome at applied
  rw [deadline] at applied
  exact Regulator.deadline_applied untouched aimed most applied

namespace Session
variable {s after : Session α} {settings : Settings} {trace : Trace α} {action : Action α}

theorem moves_untouched (sound : settings.Sound) (untouched : s.regulator.Untouched settings)
    (moves : Moves Move s trace after) : after.regulator.Untouched settings := by
  obtain ⟨log,follows,inside⟩ := untouched
  refine ⟨_,moves_follow sound follows moves,?_⟩
  exact fun rate => List.not_mem_append (inside rate) (Change.ofRounds_inside s.now trace.verdicts rate)

theorem step_untouched (sound : settings.Sound) (untouched : s.regulator.Untouched settings)
    (inside : ∀ rate, action ≠ .setRate rate) : (s.step action).2.1.regulator.Untouched settings := by
  rcases (s.step_stepped action).moves with ⟨rate,outside,_⟩ | ⟨_,middle,now,moves,_,left⟩
  · exact absurd outside (inside rate)
  · have kept := moves_untouched sound untouched moves
    rw [left]
    exact kept

theorem callHearings_untouched (untouched : s.regulator.Untouched settings) (id : Nat) :
    ∀ h ∈ s.callHearings id, h.regulator.Untouched settings := by
  have gated : ∀ call : Call α, (call.gated s).Untouched settings := by
    intro call
    obtain ⟨log,follows,inside⟩ := untouched
    have rate := (gated_kept call s).2.2
    refine ⟨log,?_,inside⟩
    unfold Call.gated at rate ⊢
    split
    · rename_i polled held
      rw [held] at rate
      exact Regulator.follows_bucket follows rate
    · exact follows
  unfold callHearings
  split
  · exact List.forall_mem_nil _
  · split
    · split
      · exact List.forall_mem_singleton.mpr (gated _)
      · exact List.forall_mem_nil _
    · exact List.forall_mem_nil _

theorem readHearings_untouched (untouched : s.regulator.Untouched settings) (id : Nat) :
    ∀ h ∈ s.readHearings id, h.regulator.Untouched settings := by
  unfold readHearings
  split
  · exact List.forall_mem_nil _
  · intro h member
    obtain ⟨signal,_,rfl⟩ := List.mem_map.mp member
    exact untouched

theorem collectHearings_untouched (sound : settings.Sound) (untouched : s.regulator.Untouched settings)
    (fuel id : Nat) : ∀ h ∈ collectHearings fuel id s, h.regulator.Untouched settings := by
  induction fuel generalizing s with
  | zero => exact List.forall_mem_nil _
  | succ fuel ih =>
    have next := moves_untouched sound untouched (s.readItem_moves id).any
    unfold collectHearings
    refine List.forall_mem_append.mpr ⟨readHearings_untouched untouched id,?_⟩
    split
    · exact List.forall_mem_nil _
    · exact List.forall_mem_nil _
    · exact List.forall_mem_nil _
    · exact ih next

theorem hearings_untouched (sound : settings.Sound) (untouched : s.regulator.Untouched settings)
    (action : Action α) : ∀ h ∈ s.hearings action, h.regulator.Untouched settings := by
  have started : ∀ {id unpolled}, s.turn action = .start id unpolled →
      ∀ h ∈ (if unpolled then [] else (s.step action.left).2.1.callHearings id), h.regulator.Untouched settings := by
    intro id unpolled turn
    have left : ∀ rate, action.left ≠ .setRate rate := by
      intro rate same
      cases action <;> cases same
      cases turn
    split
    · exact List.forall_mem_nil _
    · exact callHearings_untouched (step_untouched sound untouched left) id
  have told : ∀ (tunings : Option Tuning) (now : Nanos) (stimulus : Stimulus),
      ∀ h ∈ tunings.toList.map fun tuning => (⟨s.regulator,tuning,now,stimulus⟩ : Hearing),
        h.regulator.Untouched settings := by
    intro tunings now stimulus h member
    obtain ⟨tuning,_,rfl⟩ := List.mem_map.mp member
    exact untouched
  cases action with
  | observe service samples => exact told _ _ _
  | observeDeadline service => exact told _ _ _
  | next id => exact readHearings_untouched untouched id
  | collect id => exact collectHearings_untouched sound untouched _ id
  | poll id => exact callHearings_untouched untouched id
  | acquire | acquireBefore | acquireCancellable => exact started rfl
  | call id number plan unpolled =>
    unfold hearings
    dsimp only
    split
    · exact started ‹_›
    · exact callHearings_untouched untouched _
    · exact List.forall_mem_nil _
    · exact List.forall_mem_nil _
  | _ => exact List.forall_mem_nil _

theorem run_untouched (sound : settings.Sound) (untouched : s.regulator.Untouched settings)
    (actions : List (Action α)) (inside : ∀ rate, .setRate rate ∉ actions) :
    (s.run actions).2.regulator.Untouched settings ∧
    ∀ h ∈ s.allHearings actions, h.regulator.Untouched settings := by
  induction actions generalizing s with
  | nil => exact ⟨untouched,List.forall_mem_nil _⟩
  | cons action rest ih =>
    have first : ∀ rate, action ≠ .setRate rate := by
      rintro rate rfl
      exact inside rate List.mem_cons_self
    obtain ⟨last,later⟩ := ih (step_untouched sound untouched first) fun rate member =>
      inside rate (List.mem_cons_of_mem action member)
    exact ⟨last,List.forall_mem_append.mpr ⟨hearings_untouched sound untouched action,later⟩⟩

theorem changesOf_inside (s : Session α) (inside : ∀ rate, action ≠ .setRate rate) :
    s.changesOf action = Change.ofRounds s.now (s.step action).2.2.verdicts := by
  cases action with
  | setRate rate => exact absurd rfl (inside rate)
  | _ => rfl

theorem changes_inside (s : Session α) {actions : List (Action α)} (inside : ∀ rate, .setRate rate ∉ actions) :
    (∀ rate, .outside rate ∉ s.changes actions) ∧
    ∀ adjustment ∈ Change.adjustments (s.changes actions),
      .applied adjustment.previous adjustment.current ∈ s.verdicts actions := by
  induction actions generalizing s with
  | nil => exact ⟨fun _ => List.not_mem_nil,List.forall_mem_nil _⟩
  | cons action rest ih =>
    have first : ∀ rate, action ≠ .setRate rate := by
      rintro rate rfl
      exact inside rate List.mem_cons_self
    obtain ⟨silent,applied⟩ := ih (s.step action).2.1 fun rate member => inside rate (List.mem_cons_of_mem action member)
    have told : s.verdicts (action :: rest) = (s.step action).2.2.verdicts ++ (s.step action).2.1.verdicts rest := rfl
    rw [changes,changesOf_inside s first,Change.adjustments_append,told]
    refine ⟨?_,List.forall_mem_append.mpr ⟨?_,?_⟩⟩
    · exact fun rate => List.not_mem_append (Change.ofRounds_inside s.now _ rate) (silent rate)
    · intro adjustment member
      obtain ⟨change,here,same⟩ := List.mem_filterMap.mp member
      obtain ⟨verdict,among,made⟩ := List.mem_filterMap.mp here
      refine List.mem_append_left _ ?_
      cases verdict <;> cases made
      cases same
      exact among
    · intro adjustment member
      exact List.mem_append_right _ (applied adjustment member)

-- A part of the run with no other rounds leaves the rate no higher than it was.
theorem missed_deadlines_lower (made : Regulator.new settings s.now = .ok s.regulator)
    (before later : List (Action α)) (inside : ∀ rate, .setRate rate ∉ before ++ later) :
    let found := (s.run before).2
    let left := (found.run later).2
    (∀ h ∈ found.allHearings later, h.Missed →
      h.outcome.2.1.current ≤ h.regulator.current ∧ h.outcome.2.1.bucket.rate ≤ h.regulator.bucket.rate) ∧
    ((∀ h ∈ found.allHearings later, h.Missed) →
      left.regulator.current ≤ found.regulator.current ∧
        left.regulator.bucket.rate ≤ found.regulator.bucket.rate) := by
  intro found left
  have sound := (Regulator.new_ok made).1
  have early : ∀ rate, .setRate rate ∉ before := fun rate member => inside rate (List.mem_append_left _ member)
  have late : ∀ rate, .setRate rate ∉ later := fun rate member => inside rate (List.mem_append_right _ member)
  have follows := run_follows made before
  have untouched : found.regulator.Untouched settings := ⟨_,follows,(changes_inside s early).1⟩
  obtain ⟨last,heard⟩ := run_untouched sound untouched later late
  refine ⟨?_,?_⟩
  · rintro h member ⟨deadline,aimed,most⟩
    unfold Hearing.outcome
    rw [deadline]
    exact Regulator.deadline_lowers sound (heard h member) aimed most h.now
  · intro missed
    have lowered : ∀ adjustment ∈ Change.adjustments (found.changes later),
        adjustment.current ≤ adjustment.previous := by
      intro adjustment member
      have told := (changes_inside found late).2 adjustment member
      rw [(found.run_tells later).1] at told
      obtain ⟨h,round,applied⟩ := List.mem_map.mp told
      exact Hearing.missed_applied (heard h round) (missed h round) applied
    have followed := later_follows sound follows later
    have chained := followed.chained
    have current := followed.current
    rw [Change.adjustments_append,chained_append,← follows.current] at chained
    rw [Change.adjustments_append,latestRate_append,← follows.current] at current
    obtain ⟨flows,same⟩ := untouched.tuned
    have least : found.regulator.current ≤ found.regulator.current := by
      rw [← same]
      exact Binary64.le_refl_finite flows.1
    have lower : left.regulator.current ≤ found.regulator.current := by
      rw [current]
      exact latestRate_lowered least chained.2 lowered
    refine ⟨lower,?_⟩
    rw [same,last.tuned.2]
    exact lower

-- The second signal comes within the cooldown, after a round that raised the rate.
theorem missed_deadlines_lower_from_call :
    let settings := { Settings.default with cooldown := 10 * Nanos.perSecond }
    let opened : Session Unit := withService ⟨.fresh 0,.of settings⟩ ⟨10,100000,10000,none,⟨10000,1,1,0⟩⟩
    let before : List (Action Unit) := [.observe none [35],.advance (10 * Nanos.perSecond)]
    let later : List (Action Unit) :=
      [.call 0 0 ⟨none,0,.error .elapsed⟩ false,.observeDeadline (some 0),.advance (10 * Nanos.perSecond),
        .observeDeadline none]
    let found := (opened.run before).2
    let left := (found.run later).2
    (found.allHearings later).map (fun h => h.verdict.name) = ["Applied","CoolingDown","Applied"] ∧
    (∀ h ∈ found.allHearings later, h.Missed) ∧ left.regulator.current ≤ found.regulator.current ∧
      left.regulator.bucket.rate ≤ found.regulator.bucket.rate := by
  intro settings opened before later found left
  have sound : settings.Sound := by constructor <;> decide +kernel
  have made : Regulator.new settings opened.now = .ok opened.regulator := Regulator.new_sound sound
  have missed : ∀ h ∈ found.allHearings later, h.Missed := by decide +kernel
  have lowered := (missed_deadlines_lower made before later (by simp [before,later])).2 missed
  exact ⟨by decide +kernel,missed,lowered⟩

-- Settings with a target above what a missed deadline is read as pass the checks, too.
theorem missed_deadline_raises_rate :
    let settings := { Settings.default with initialRate := 100, targetLoad := 100 }
    settings.validate = .ok () ∧ ∃ opened : Session Unit, ofLayer settings = .ok opened ∧
      let left := (opened.step (.observeDeadline none)).2.1
      opened.regulator.current < left.regulator.current ∧
        opened.regulator.bucket.rate < left.regulator.bucket.rate := by
  intro settings
  have sound : settings.Sound := by constructor <;> decide +kernel
  let opened : Session Unit := withService ⟨.fresh 0,.of settings⟩ ⟨10,100000,100,none,⟨100,1,1,0⟩⟩
  have layer : ofLayer settings = .ok opened := by
    unfold ofLayer Tuning.fresh
    rw [Regulator.new_sound sound]
    rfl
  exact ⟨sound.validate,opened,layer,by decide +kernel,by decide +kernel⟩

end Session
end LoadPacing
