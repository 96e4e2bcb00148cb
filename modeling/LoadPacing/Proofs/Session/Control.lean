import LoadPacing.Proofs.Binary64.Order
import LoadPacing.Proofs.Session.Moves
import LoadPacing.Session.Start

-- The rate is recorded by the regulator and in force at the bucket, both by the work of the same changes.
namespace LoadPacing

structure Adjustment where
  previous : Binary64
  current : Binary64
  instant : Nanos
  deriving DecidableEq

-- A change of the rate in force, by an applied round or by a usable rate from outside.
inductive Change where
  | applied (adjustment : Adjustment)
  | outside (rate : Binary64)
  deriving DecidableEq

namespace Change

def ofVerdict (now : Nanos) : Verdict → Option Change
  | .applied previous current => some (.applied ⟨previous,current,now⟩)
  | .noSignal | .outOfBounds _ | .coolingDown _ _ => none

def ofRounds (now : Nanos) (verdicts : List Verdict) : List Change := verdicts.filterMap (ofVerdict now)

def adjustment? : Change → Option Adjustment
  | .applied adjustment => some adjustment
  | .outside _ => none

def adjustments (log : List Change) : List Adjustment := log.filterMap adjustment?

-- A usable rate was set from outside, and no round has been applied since.
def Detuned (log : List Change) : Prop := ∃ rate, log.getLast? = some (.outside rate)

end Change

-- Each adjustment starts from the rate that the one before it left.
def Chained (initial : Binary64) : List Adjustment → Prop
  | [] => True
  | adjustment :: later => adjustment.previous = initial ∧ Chained adjustment.current later

def latestRate (initial : Binary64) (adjustments : List Adjustment) : Binary64 :=
  (adjustments.getLast?.map Adjustment.current).getD initial

theorem latestRate_cons (initial : Binary64) (adjustment : Adjustment) (later : List Adjustment) :
    latestRate initial (adjustment :: later) = latestRate adjustment.current later := by
  simp only [latestRate,List.getLast?_cons]
  cases later.getLast? <;> rfl

theorem latestRate_append (initial : Binary64) (first later : List Adjustment) :
    latestRate initial (first ++ later) = latestRate (latestRate initial first) later := by
  induction first generalizing initial with
  | nil => rfl
  | cons adjustment first ih => rw [List.cons_append,latestRate_cons,latestRate_cons,ih]

theorem chained_append (initial : Binary64) (first later : List Adjustment) :
    Chained initial (first ++ later) ↔ Chained initial first ∧ Chained (latestRate initial first) later := by
  induction first generalizing initial with
  | nil => simp [Chained,latestRate]
  | cons adjustment first ih => simp only [List.cons_append,Chained,ih,latestRate_cons,and_assoc]

namespace Session

def changesOf (s : Session α) (action : Action α) : List Change :=
  (match action with
    | .setRate rate => if rate.Positive then [.outside rate] else []
    | _ => []) ++ Change.ofRounds s.now (s.step action).2.2.verdicts

def changes (s : Session α) : List (Action α) → List Change
  | [] => []
  | action :: rest => s.changesOf action ++ (s.step action).2.1.changes rest

end Session

structure Regulator.Follows (settings : Settings) (log : List Change) (r : Regulator) : Prop where
  lower : r.lower = settings.lowerBound
  upper : r.upper = settings.upperBound
  within : Settings.Within settings.lowerBound settings.upperBound r.current
  flows : r.bucket.rate.Positive
  tuned : ¬ Change.Detuned log → r.bucket.rate = r.current
  chained : Chained settings.initialRate (Change.adjustments log)
  current : r.current = latestRate settings.initialRate (Change.adjustments log)
  lastCommit : r.lastCommit = (Change.adjustments log).getLast?.map Adjustment.instant

theorem Change.adjustments_append (log more : List Change) :
    adjustments (log ++ more) = adjustments log ++ adjustments more := List.filterMap_append

namespace Regulator
variable {settings : Settings} {log : List Change} {r : Regulator}

theorem follows_new (made : Regulator.new settings now = .ok r) : r.Follows settings [] := by
  obtain ⟨sound,rfl⟩ := new_ok made
  have flows := Binary64.positive_of_within sound.lower sound.upper sound.initial
  exact ⟨rfl,rfl,sound.initial,flows,fun _ => rfl,trivial,rfl,rfl⟩

theorem follows_adopt (sound : settings.Sound) (follows : r.Follows settings log) (inside : r.Contains rate) :
    (r.adopt rate now).Follows settings (log ++ [.applied ⟨r.current,rate,now⟩]) := by
  unfold Contains at inside
  rw [follows.lower,follows.upper] at inside
  have flows := Binary64.positive_of_within sound.lower sound.upper inside
  have retuned : (r.adopt rate now).bucket.rate = rate := by simp [adopt,Bucket.retune,flows]
  have log' : Change.adjustments (log ++ [.applied ⟨r.current,rate,now⟩]) =
      Change.adjustments log ++ [⟨r.current,rate,now⟩] := Change.adjustments_append _ _
  refine ⟨follows.lower,follows.upper,inside,?_,fun _ => retuned,?_,?_,?_⟩
  · rw [retuned]; exact flows
  · rw [log',chained_append]
    exact ⟨follows.chained,follows.current,trivial⟩
  · rw [log',latestRate_append]; rfl
  · simp [log']

theorem follows_settled (sound : settings.Sound) (follows : r.Follows settings log)
    (settled : r.Settled now verdict after) :
    after.Follows settings (log ++ Change.ofRounds now [verdict]) := by
  rcases settled with ⟨rate,inside,rfl,rfl⟩ | ⟨kept,rfl⟩
  · exact follows_adopt sound follows inside
  · have none : Change.ofRounds now [verdict] = [] := by
      cases verdict with
      | applied previous current => cases kept
      | noSignal | outOfBounds | coolingDown => rfl
    rwa [none,List.append_nil]

theorem follows_bucket {bucket : Bucket} (follows : r.Follows settings log) (same : bucket.rate = r.bucket.rate) :
    Regulator.Follows settings log { r with bucket } := by
  refine ⟨follows.lower,follows.upper,follows.within,?_,?_,follows.chained,follows.current,follows.lastCommit⟩
  · rw [same]; exact follows.flows
  · intro tuned
    exact same.trans (follows.tuned tuned)

theorem follows_retune (follows : r.Follows settings log) (rate : Binary64) :
    Regulator.Follows settings (log ++ if rate.Positive then [.outside rate] else [])
      { r with bucket := r.bucket.retune rate } := by
  by_cases flows : rate.Positive
  · have same : Change.adjustments (log ++ [.outside rate]) = Change.adjustments log := by
      simp [Change.adjustments,Change.adjustment?]
    simp only [flows,if_true,Bucket.retune]
    refine ⟨follows.lower,follows.upper,follows.within,flows,?_,?_,?_,?_⟩
    · intro tuned
      exact absurd ⟨rate,List.getLast?_concat⟩ tuned
    · rw [same]; exact follows.chained
    · rw [same]; exact follows.current
    · rw [same]; exact follows.lastCommit
  · simpa [flows,Bucket.retune] using follows

end Regulator

namespace Session
variable {s middle after : Session α} {settings : Settings} {log : List Change}

theorem move_follows (sound : settings.Sound) (follows : s.regulator.Follows settings log)
    (move : Move s trace after) :
    after.regulator.Follows settings (log ++ Change.ofRounds s.now trace.verdicts) := by
  have effect := move.effect
  generalize trace.ops = ops at effect
  generalize trace.verdicts = verdicts at effect ⊢
  generalize after.regulator = changed at effect ⊢
  cases effect with
  | settled settled => exact Regulator.follows_settled sound follows settled
  | operated inward =>
    rw [Change.ofRounds,List.filterMap_nil,List.append_nil]
    exact Regulator.follows_bucket follows (Bucket.run_rate _ _ inward)

theorem moves_follow (sound : settings.Sound) (follows : s.regulator.Follows settings log)
    (moves : Moves Move s trace after) :
    after.regulator.Follows settings (log ++ Change.ofRounds s.now trace.verdicts) := by
  induction moves generalizing log with
  | nil => simpa [Change.ofRounds,Trace.none] using follows
  | cons move _ ih =>
    have moved := ih (move_follows sound follows move)
    rw [move.now_eq,List.append_assoc] at moved
    rwa [Trace.append_verdicts,Change.ofRounds,List.filterMap_append]

theorem step_follows (sound : settings.Sound) (follows : s.regulator.Follows settings log)
    (action : Action α) :
    (s.step action).2.1.regulator.Follows settings (log ++ s.changesOf action) := by
  unfold changesOf
  rcases (s.step_stepped action).moves with ⟨rate,rfl,after,trace⟩ | ⟨inside,middle,now,moves,_,after⟩
  · rw [after,trace,Change.ofRounds,List.filterMap_nil,List.append_nil]
    exact Regulator.follows_retune follows rate
  · have followed := moves_follow sound follows moves
    rw [after]
    cases action with
    | setRate rate => exact absurd rfl (inside rate)
    | _ => exact followed

theorem later_follows (sound : settings.Sound) (follows : s.regulator.Follows settings log)
    (actions : List (Action α)) :
    (s.run actions).2.regulator.Follows settings (log ++ s.changes actions) := by
  induction actions generalizing s log with
  | nil => simpa [changes,run] using follows
  | cons action rest ih =>
    rw [changes,← List.append_assoc]
    exact ih (step_follows sound follows action)

-- The rate is in force at the bucket unless the last change came from outside.
theorem run_follows (made : Regulator.new settings s.now = .ok s.regulator) (actions : List (Action α)) :
    (s.run actions).2.regulator.Follows settings (s.changes actions) := by
  have sound := (Regulator.new_ok made).1
  exact later_follows sound (Regulator.follows_new made) actions

theorem run_follows_two_services :
    let opened : Session Unit :=
      withService ⟨.fresh 0,.of .default⟩ ⟨10,100000,10000,none,⟨10000,1,1,0⟩⟩
    let actions : List (Action Unit) :=
      [.shareService { Settings.default with targetLoad := 50, cooldown := 0 },.observe (some 0) [35],
        .setRate 400,.observe (some 0) [7],.setRate 0,.observe (some 1) [25],.observe (some 1) [0]]
    opened.changes actions =
      [.applied ⟨10000,20000,0⟩,.outside 400,.applied ⟨20000,800,0⟩] ∧
    (opened.run actions).2.regulator.Follows .default (opened.changes actions) :=
  ⟨by decide +kernel,run_follows (Regulator.new_sound Settings.default_sound) _⟩

end Session
end LoadPacing
