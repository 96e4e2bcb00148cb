import LoadPacing.Proofs.Bucket.Solvency
import LoadPacing.Proofs.Session.Books
import LoadPacing.Proofs.Session.Control

-- When the gate can tell every caller an instant.
namespace LoadPacing

namespace Bucket

def Overflows (b : Bucket) (ops : List Op) : Prop := ∃ entry ∈ b.diary ops, entry.2 = .overflow

theorem overflows_reserve {b : Bucket} {now : Nanos} {terms : Terms} (lost : (b.reserve now terms).1 = .overflow) :
    b.Overflows [.reserve now terms] := ⟨_,List.mem_cons_self,lost⟩

theorem overflows_append {b : Bucket} {xs ys : List Op} :
    b.Overflows (xs ++ ys) ↔ b.Overflows xs ∨ (b.run xs).Overflows ys := by
  unfold Overflows
  rw [diary_append]
  simp only [List.mem_append,or_and_right,exists_or]

theorem diary_split (b : Bucket) (before after : List Op) (now : Nanos) (terms : Terms) :
    (now,((b.run before).reserve now terms).1) ∈ b.diary (before ++ .reserve now terms :: after) := by
  rw [diary_append]
  exact List.mem_append_right _ List.mem_cons_self

end Bucket

theorem Wait.Polling.overflows (polling : Wait.Polling w now b polled) (lost : polled.outcome = .overflow) :
    b.Overflows polled.ops := by
  cases polling with
  | overflow fresh booking => exact Bucket.overflows_reserve (congrArg Prod.fst booking)
  | refused | atOnce | cancelledAtOnce | begun | woken | cancelled | asleep => cases lost

theorem Progress.ofOutcome_overflow (lost : Progress.ofOutcome outcome = .overflow) : outcome = .overflow := by
  cases outcome with
  | overflow => rfl
  | pending | ready | failed => cases lost

namespace Session
variable {s : Session α} {id : Nat}

theorem pollGate_overflows {wait : Wait} {waiting : Wait → Handle α} {through : Handle α} {issues : List (Issue α)}
    (lost : (s.pollGate id wait waiting through issues).1 = .overflow) :
    s.regulator.bucket.Overflows (s.pollGate id wait waiting through issues).2.2.ops := by
  have polling := wait.poll_polling s.now s.regulator.bucket
  unfold pollGate at lost ⊢
  dsimp only at lost ⊢
  split at lost
  · cases lost
  · cases lost
  · cases lost
  · rename_i outcome
    exact polling.overflows outcome

theorem proceed_answers (s : Session α) (id : Nat) (call : Call α) (pauses : Nat) :
    (s.proceed id call pauses).1 ≠ .overflow := by
  cases pauses with
  | succ pauses => nofun
  | zero =>
    unfold proceed
    cases call.plan.outcome with
    | ok script => nofun
    | error failure =>
      dsimp only
      split <;> nofun

theorem pollCall_overflows {call : Call α} (lost : (s.pollCall id call).1 = .overflow) :
    s.regulator.bucket.Overflows (s.pollCall id call).2.2.ops := by
  unfold pollCall at lost ⊢
  split at lost
  · exact absurd lost (s.proceed_answers id call _)
  · dsimp only at lost ⊢
    split at lost
    · exact absurd lost (proceed_answers _ id call _)
    · rename_i going
      rw [if_neg going]
      exact pollGate_overflows (Progress.ofOutcome_overflow lost)

theorem pollHandle_overflows (lost : (s.pollHandle id).1 = .progress .overflow) :
    s.regulator.bucket.Overflows (s.pollHandle id).2.2.ops := by
  unfold pollHandle at lost ⊢
  split at lost
  · cases lost
  · exact pollGate_overflows (Progress.ofOutcome_overflow (Answer.progress.inj lost))
  · exact pollCall_overflows (Answer.progress.inj lost)
  · cases lost

theorem launch_overflows {handle : Handle α} {unpolled : Bool}
    (lost : (s.launch id handle unpolled).1 = .progress .overflow) :
    s.regulator.bucket.Overflows (s.launch id handle unpolled).2.2.ops := by
  have released := (moves_keep (s.release_moves id).1).bucket
  unfold launch at lost ⊢
  cases unpolled with
  | true => cases lost
  | false =>
    have polled := pollHandle_overflows lost
    refine Bucket.overflows_append.mpr (.inr ?_)
    rw [← released]
    exact polled

theorem tryAcquire_overflows (s : Session α) :
    s.tryAcquire.1 = .overflow → s.regulator.bucket.Overflows s.tryAcquire.2.2.ops := Bucket.overflows_reserve

theorem drain_overflows (most taken : Nat) (s : Session α) :
    (drain most taken s).1 = none → s.regulator.bucket.Overflows (drain most taken s).2.2.ops := by
  refine drain_induct (P := fun _ s drained => drained.1 = none → s.regulator.bucket.Overflows drained.2.2.ops)
    ?_ ?_ ?_ ?_ most taken s
  · exact fun _ _ lost => absurd lost (Option.some_ne_none _)
  · exact fun _ _ _ lost => absurd lost (Option.some_ne_none _)
  · exact fun _ s lost _ => s.tryAcquire_overflows lost
  · exact fun _ _ _ _ _ overflows lost => Bucket.overflows_append.mpr (.inr (overflows lost))

theorem acquireAwait_overflows (lost : s.acquireAwait.1 = .overflow) :
    s.regulator.bucket.Overflows s.acquireAwait.2.2.ops := by
  have told := s.regulator.bucket.reserve_anyTime s.now
  unfold acquireAwait at lost ⊢
  dsimp only at lost ⊢
  split at lost
  · split at lost <;> cases lost
  · rename_i outcome bucket going eq
    rw [eq] at told
    cases outcome with
    | booked ready => exact absurd rfl (going ready)
    | refused => exact absurd rfl told
    | overflow => exact Bucket.overflows_reserve (congrArg Prod.fst eq)

def Undated (s : Session α) (action : Action α) : Prop :=
  ∃ id number plan unpolled service, action = .call id number plan unpolled ∧
    s.services[number]? = some service ∧ service.deadline s.now = none

theorem call_overflows {number : Nat} {plan : Plan α} {unpolled : Bool}
    (lost : (s.call id number plan unpolled).1 = .progress .overflow) :
    s.Undated (.call id number plan unpolled) ∨
      s.regulator.bucket.Overflows (s.call id number plan unpolled).2.2.ops := by
  unfold call at lost ⊢
  cases found : s.services[number]? with
  | none => rw [found] at lost; cases lost
  | some service =>
    rw [found] at lost
    dsimp only at lost ⊢
    have same : s.createBackend.2.now = s.now := rfl
    rw [same] at lost ⊢
    cases deadline : service.deadline s.now with
    | none => exact .inl ⟨id,number,plan,unpolled,service,rfl,found,deadline⟩
    | some terms =>
      rw [deadline] at lost
      have launched := launch_overflows lost
      exact .inr launched

theorem step_overflows {action : Action α} (lost : (s.step action).1 = .progress .overflow) :
    s.Undated action ∨ s.regulator.bucket.Overflows (s.step action).2.2.ops := by
  cases action with
  | call id number plan unpolled => exact call_overflows lost
  | acquire | acquireBefore | acquireCancellable => exact .inr (launch_overflows lost)
  | poll id => exact .inr (pollHandle_overflows lost)
  | acquireAwait => exact .inr (acquireAwait_overflows (Answer.progress.inj lost))
  | tryAcquire =>
    have tried := s.tryAcquire_overflows
    unfold step at lost ⊢
    dsimp only at lost ⊢
    split at lost <;> (rename_i eq; rw [eq] at tried)
    · cases lost
    · cases lost
    · exact .inr (tried rfl)
  | drain most =>
    have drained := drain_overflows most 0 s
    unfold step at lost ⊢
    dsimp only at lost ⊢
    split at lost <;> (rename_i eq; rw [eq] at drained)
    · cases lost
    · exact .inr (drained rfl)
  | pollReady number inner =>
    unfold step pollReady at lost
    dsimp only at lost
    split at lost
    · cases lost
    · cases inner <;> cases lost
  | advance | setRate | cancel | drop | contains | stats | layer => cases lost
  | observe | observeDeadline | instanceOf | clone | shareService | shareLayer | next | collect | callState | unwrap =>
    unfold step at lost
    dsimp only at lost
    split at lost <;> cases lost

theorem Effect.retunes {ops : List Bucket.Op} {now : Nanos} (effect : Effect r now ops verdicts after)
    (member : .retune rate ∈ ops) : r.Contains rate := by
  cases effect with
  | operated inward => exact False.elim (inward _ member)
  | settled settled =>
    rcases settled with ⟨adopted,inside,rfl,_⟩ | ⟨unapplied,_⟩
    · cases List.mem_singleton.mp member
      exact inside
    · rw [Verdict.ops_unapplied unapplied] at member
      cases member

variable {settings : Settings} {log : List Change}

theorem moves_retune (sound : settings.Sound) (follows : s.regulator.Follows settings log)
    (moves : Moves Move s trace after) (rate : Binary64) (member : .retune rate ∈ trace.ops) :
    Settings.Within settings.lowerBound settings.upperBound rate := by
  induction moves generalizing log with
  | nil => cases member
  | cons move _ ih =>
    rcases List.mem_append.mp member with first | later
    · have inside := move.effect.retunes first
      unfold Regulator.Contains at inside
      rwa [follows.lower,follows.upper] at inside
    · exact ih (move_follows sound follows move) later

theorem run_retunes (sound : settings.Sound) (follows : s.regulator.Follows settings log) (actions : List (Action α))
    (inside : ∀ rate, .setRate rate ∉ actions) (rate : Binary64) (member : .retune rate ∈ s.ops actions) :
    Settings.Within settings.lowerBound settings.upperBound rate := by
  induction actions generalizing s log with
  | nil => cases member
  | cons action rest ih =>
    rw [ops_cons] at member
    rcases List.mem_append.mp member with first | later
    · rcases (s.step_stepped action).moves with ⟨outside,rfl,_⟩ | ⟨_,_,_,moves,_⟩
      · exact absurd List.mem_cons_self (inside outside)
      · exact moves_retune sound follows moves rate first
    · have others : ∀ rate, .setRate rate ∉ rest := fun rate more => inside rate (List.mem_cons_of_mem action more)
      exact ih (step_follows sound follows action) others later

theorem run_overflows (s : Session α) (before after : List (Action α)) (action : Action α)
    (lost : (s.run before).2.regulator.bucket.Overflows ((s.run before).2.step action).2.2.ops) :
    s.regulator.bucket.Overflows (s.ops (before ++ action :: after)) := by
  induction before generalizing s with
  | nil => exact Bucket.overflows_append.mpr (.inl lost)
  | cons first rest ih =>
    have later := ih (s.step first).2.1 lost
    rw [(s.step_keeps first).bucket] at later
    exact Bucket.overflows_append.mpr (.inr later)

-- Debts must be repaid at the lower bound within half of the clock. A debt of 2^53 permits does not grow, so
-- every run is one of these if that bound is 2^-9 permits per second.
theorem attempts_answered (made : Regulator.new settings s.now = .ok s.regulator) (actions : List (Action α))
    (inside : ∀ rate, .setRate rate ∉ actions)
    (repaid : (min (s.regulator.bucket.taken (s.ops actions)) (2 ^ 53) : Nat) ≤ 2 ^ 62 * settings.lowerBound.value)
    (early : ∀ entry ∈ s.regulator.bucket.diary (s.ops actions), entry.1 < 2 ^ 62 * Nanos.perSecond) :
    (∀ entry ∈ s.regulator.bucket.diary (s.ops actions), entry.2 ≠ .overflow) ∧
    (∀ before now after, s.ops actions = before ++ .reserve now .anyTime :: after →
      ∃ ready, ((s.regulator.bucket.run before).reserve now .anyTime).1 = .booked ready) ∧
    ∀ before action after, actions = before ++ action :: after →
      ((s.run before).2.step action).1 = .progress .overflow → (s.run before).2.Undated action := by
  have follows := Regulator.follows_new made
  obtain ⟨sound,opened⟩ := Regulator.new_ok made
  have positive := Binary64.positive_value sound.lower
  have fast : ∀ {rate : Binary64}, rate.IsFinite → Settings.Within settings.lowerBound settings.upperBound rate →
      settings.lowerBound.value ≤ rate.value :=
    fun finite within => (Binary64.value_le sound.lower.1 finite).mp within.1
  have solvent : s.regulator.bucket.Solvent settings.lowerBound.value 0 := by
    have flows := Binary64.positive_of_within sound.lower sound.upper sound.initial
    rw [opened]
    exact ⟨flows,fast flows.1 sound.initial,Bucket.lowest_le_one 0⟩
  have rates : ∀ rate, .retune rate ∈ s.ops actions → rate.Positive → settings.lowerBound.value ≤ rate.value :=
    fun rate member flows => fast flows.1 (run_retunes sound follows actions inside rate member)
  have told := Bucket.diary_told (s.ops actions) solvent positive rates (by rwa [Nat.zero_add]) early
  refine ⟨told,?_,?_⟩
  · intro before now after split
    have member := s.regulator.bucket.diary_split before after now .anyTime
    rw [← split] at member
    have heard := told _ member
    have accepted := (s.regulator.bucket.run before).reserve_anyTime now
    cases booking : ((s.regulator.bucket.run before).reserve now .anyTime).1 with
    | booked ready => exact ⟨ready,rfl⟩
    | refused => exact absurd booking accepted
    | overflow => exact absurd booking heard
  · rintro before action after rfl lost
    rcases step_overflows lost with undated | overflows
    · exact undated
    · obtain ⟨entry,member,overflow⟩ := s.run_overflows before after action overflows
      exact absurd overflow (told entry member)

theorem attempts_answered_slow_rate :
    let slow : Binary64 := 1 / Binary64.ofNat (2 ^ 40)
    let settings := { Settings.default with initialRate := slow, lowerBound := slow }
    let opened : Session Unit := withService ⟨.fresh 0,.of settings⟩ ⟨slow,100000,slow,none,⟨slow,1,1,0⟩⟩
    let actions : List (Action Unit) :=
      [.tryAcquire,.acquire 0 false,.observe (some 0) [35],.acquire 1 false,.tryAcquire]
    Regulator.new settings opened.now = .ok opened.regulator ∧
    opened.regulator.bucket.diary (opened.ops actions) =
      [(0,.booked 0),(0,.booked (2 ^ 40 * Nanos.perSecond)),(0,.booked (2 ^ 40 * Nanos.perSecond)),(0,.refused)] ∧
    (∀ entry ∈ opened.regulator.bucket.diary (opened.ops actions), entry.2 ≠ .overflow) ∧
    (∀ before now after, opened.ops actions = before ++ .reserve now .anyTime :: after →
      ∃ ready, ((opened.regulator.bucket.run before).reserve now .anyTime).1 = .booked ready) ∧
    ∀ before action after, actions = before ++ action :: after →
      ((opened.run before).2.step action).1 = .progress .overflow → (opened.run before).2.Undated action := by
  intro slow settings opened actions
  have made : Regulator.new settings opened.now = .ok opened.regulator :=
    Regulator.new_sound (by constructor <;> decide +kernel)
  have diary : opened.regulator.bucket.diary (opened.ops actions) =
      [(0,.booked 0),(0,.booked (2 ^ 40 * Nanos.perSecond)),(0,.booked (2 ^ 40 * Nanos.perSecond)),(0,.refused)] := by
    decide +kernel
  have inside : ∀ rate, .setRate rate ∉ actions := by
    intro rate
    simp [actions]
  exact ⟨made,diary,attempts_answered made actions inside (by decide +kernel) (by decide +kernel)⟩

theorem step_tryAcquire_lost (lost : s.tryAcquire.1 = .overflow) : (s.step .tryAcquire).1 = .progress .overflow := by
  unfold step
  dsimp only
  split <;> (rename_i eq; rw [eq] at lost)
  · cases lost
  · cases lost

-- A rate that passes the checks can be too low for the clock to tell when a second permit is due.
theorem attempts_overflow_tiny_rate :
    let tiny := Binary64.ofDecimal false 1 (-20)
    let settings := { Settings.default with initialRate := tiny, lowerBound := tiny, upperBound := 100 }
    settings.validate = .ok () ∧ ∃ opened : Session Unit, ofLayer settings = .ok opened ∧
      opened.regulator.bucket.diary (opened.ops [.tryAcquire,.tryAcquire]) = [(0,.booked 0),(0,.overflow)] ∧
      ((opened.run [.tryAcquire]).2.step .tryAcquire).1 = .progress .overflow := by
  intro tiny settings
  have sound : settings.Sound := by constructor <;> decide +kernel
  let opened : Session Unit := withService ⟨.fresh 0,.of settings⟩ ⟨tiny,100,tiny,none,⟨tiny,1,1,0⟩⟩
  have layer : ofLayer settings = .ok opened := by
    unfold ofLayer Tuning.fresh
    rw [Regulator.new_sound sound]
    rfl
  have lost : (opened.run [.tryAcquire]).2.tryAcquire.1 = .overflow := by decide +kernel
  exact ⟨sound.validate,opened,layer,by decide +kernel,step_tryAcquire_lost lost⟩

end Session
end LoadPacing
