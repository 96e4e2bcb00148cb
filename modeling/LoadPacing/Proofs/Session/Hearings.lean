import LoadPacing.Proofs.Regulator.Tallies
import LoadPacing.Proofs.Session.CallPolls
import LoadPacing.Proofs.Session.Streams

-- The control rounds of a session, told from its streams, calls and signals.
namespace LoadPacing

def Signal.stimulus : Signal → Stimulus
  | .response report => .load (Load.sample report.readings)
  | .deadline => .deadline

namespace Session
variable {s after : Session α} {id : Nat} {call : Call α} {failure : Failure}

def callHearings (s : Session α) (id : Nat) : List Hearing :=
  match s.calling id with
  | none => []
  | some call =>
    match call.inner s with
    | some (.error failure) => if failure.isDeadline then [⟨call.gated s,call.tuning,s.now,.deadline⟩] else []
    | _ => []

def readHearings (s : Session α) (id : Nat) : List Hearing :=
  match s.stream id with
  | none => []
  | some relay =>
    relay.next.2.2.signal?.toList.map fun signal => ⟨s.regulator,relay.tuning,s.now,signal.stimulus⟩

def collectHearings : Nat → Nat → Session α → List Hearing
  | 0, _, _ => []
  | fuel + 1, id, s =>
    s.readHearings id ++
      match (s.readItem id).1 with
      | none | some .pending | some .ended => []
      | some _ => collectHearings fuel id (s.readItem id).2.1

-- The control rounds of a step.
def hearings (s : Session α) (action : Action α) : List Hearing :=
  match action with
  | .observe service samples =>
    (s.tuningOf service).toList.map fun tuning => ⟨s.regulator,tuning,s.now,.load samples⟩
  | .observeDeadline service =>
    (s.tuningOf service).toList.map fun tuning => ⟨s.regulator,tuning,s.now,.deadline⟩
  | .next id => s.readHearings id
  | .collect id => collectHearings (s.scriptLength id + 1) id s
  | _ =>
    match s.turn action with
    | .start id unpolled => if unpolled then [] else (s.step action.left).2.1.callHearings id
    | .poll id => s.callHearings id
    | .drop _ | .aside => []

end Session

structure Trace.Tells (trace : Trace α) (rounds : List Hearing) : Prop where
  verdicts : trace.verdicts = rounds.map Hearing.verdict
  metrics : trace.notices.flatMap Notice.metrics = rounds.flatMap Hearing.metrics

namespace Trace
variable {t u : Trace α} {first later : List Hearing}

theorem Tells.append (one : t.Tells first) (two : u.Tells later) : (t ++ u).Tells (first ++ later) := by
  refine ⟨?_,?_⟩
  · rw [append_verdicts,List.map_append,one.verdicts,two.verdicts]
  · rw [append_notices,List.flatMap_append,List.flatMap_append,one.metrics,two.metrics]

end Trace

namespace Session
variable {s after : Session α} {id : Nat} {call : Call α} {failure : Failure}

theorem round_tells (s : Session α) (h : Hearing) : (s.round h.outcome).2.2.Tells [h] := by
  refine ⟨rfl,?_⟩
  rw [List.flatMap_singleton,← h.outcome_metrics]
  rfl

theorem hear_tells (s : Session α) (tuning : Tuning) (signal : Signal) :
    (s.round (s.regulator.hear tuning s.now signal)).2.2.Tells [⟨s.regulator,tuning,s.now,signal.stimulus⟩] := by
  -- The stream that the signal is from plays no part in its answer.
  have heard := (s.regulator.hear_answer ⟨0,s.now,tuning,signal⟩).2
  have answered : s.regulator.answer ⟨0,s.now,tuning,signal⟩ =
      Hearing.outcome ⟨s.regulator,tuning,s.now,signal.stimulus⟩ := by
    cases signal <;> rfl
  rw [answered,Hearing.outcome_metrics] at heard
  refine ⟨?_,?_⟩
  · cases signal <;> rfl
  · rw [List.flatMap_singleton]
    exact heard

theorem readItem_tells (s : Session α) (id : Nat) : (s.readItem id).2.2.Tells (s.readHearings id) := by
  unfold readHearings
  cases found : s.stream id with
  | none =>
    have silent : (s.readItem id).2.2 = .none := by
      unfold stream at found
      unfold readItem
      split
      · rfl
      · rename_i here
        rw [here] at found
        cases found
      · rfl
    rw [silent]
    exact ⟨rfl,rfl⟩
  | some relay =>
    unfold readItem
    rw [stream_found found]
    dsimp only
    cases relay.next.2.2 with
    | nothing | completed => exact ⟨rfl,rfl⟩
    | signal signal => exact hear_tells (s.put id (.relaying relay.next.2.1)) relay.tuning signal

theorem readItems_tells (fuel id : Nat) (s : Session α) :
    (readItems fuel id s).2.2.Tells (collectHearings fuel id s) := by
  refine readItems_induct (P := fun fuel s read => read.2.2.Tells (collectHearings fuel id s)) ?_ ?_ ?_ fuel s
  · exact fun _ => ⟨rfl,rfl⟩
  · intro fuel s item ends read
    have one := s.readItem_tells id
    unfold collectHearings
    rw [read]
    rcases ends with rfl | rfl | rfl <;> rwa [List.append_nil]
  · intro fuel s item later going open_ read told
    have both := (s.readItem_tells id).append told
    unfold collectHearings
    rw [read]
    cases item with
    | pending => exact absurd rfl going
    | ended => exact absurd rfl open_
    | response | failure => exact both

theorem pollWait_hears_none (s : Session α) (id : Nat) (wait : Wait) : (s.pollWait id wait).2.2.Tells [] := by
  unfold pollWait pollGate
  dsimp only
  split <;> exact ⟨rfl,rfl⟩

theorem pollHandle_hears (s : Session α) (id : Nat) : (s.pollHandle id).2.2.Tells (s.callHearings id) := by
  unfold callHearings
  cases found : s.calling id with
  | none =>
    unfold pollHandle
    split
    · exact ⟨rfl,rfl⟩
    · exact s.pollWait_hears_none id _
    · rename_i here
      simp [calling,here,Handle.call?] at found
    · exact ⟨rfl,rfl⟩
  | some call =>
    rw [pollHandle_calling found]
    dsimp only
    cases inner : call.inner s with
    | none =>
      obtain ⟨_,notices,verdicts⟩ := pollCall_quiet id inner
      exact ⟨verdicts,by rw [notices]; rfl⟩
    | some outcome =>
      cases outcome with
      | ok script =>
        obtain ⟨_,_,notices,verdicts⟩ := pollCall_streams id inner
        exact ⟨verdicts,by rw [notices]; rfl⟩
      | error failure =>
        have failed := (pollCall_failed id inner).2
        dsimp only
        split at failed
        · rename_i missed
          rw [if_pos missed]
          obtain ⟨verdicts,rest⟩ := Prod.ext_iff.mp failed
          have notices := (Prod.ext_iff.mp rest).2
          have told := Hearing.outcome_metrics ⟨call.gated s,call.tuning,s.now,.deadline⟩
          refine ⟨verdicts,?_⟩
          rw [List.flatMap_singleton,← told]
          exact congrArg (List.flatMap Notice.metrics) notices
        · rename_i answered
          rw [if_neg answered]
          obtain ⟨verdicts,rest⟩ := Prod.ext_iff.mp failed
          have notices := (Prod.ext_iff.mp rest).2
          exact ⟨verdicts,congrArg (List.flatMap Notice.metrics) notices⟩

theorem drain_tells (most taken : Nat) (s : Session α) : (drain most taken s).2.2.Tells [] :=
  (drain_tries most taken s).leaves (P := fun trace => trace.Tells []) ⟨rfl,rfl⟩ Trace.Tells.append
    fun | .mk _ => ⟨rfl,rfl⟩

theorem start_tells {action : Action α} (turn : s.turn action = .start id unpolled) :
    (s.step action).2.2.Tells (if unpolled then [] else (s.step action.left).2.1.callHearings id) := by
  obtain ⟨services,instances,handle,_,_,ran,left⟩ := start_launched turn
  obtain ⟨ops,released⟩ := release_trace { s with services, instances } id
  rw [ran,left]
  cases unpolled with
  | true =>
    have only : ({ s with services, instances }.launch id handle true).2.2 = .ofOps ops := released
    rw [only]
    exact ⟨rfl,rfl⟩
  | false =>
    rw [launch_polled,released]
    have before : (Trace.ofOps ops : Trace α).Tells [] := ⟨rfl,rfl⟩
    exact before.append (pollHandle_hears _ id)

theorem step_tells (s : Session α) (action : Action α) : (s.step action).2.2.Tells (s.hearings action) := by
  cases action with
  | observe service samples =>
    unfold step hearings
    dsimp only
    cases s.tuningOf service with
    | none => exact ⟨rfl,rfl⟩
    | some tuning => exact s.round_tells ⟨s.regulator,tuning,s.now,.load samples⟩
  | observeDeadline service =>
    unfold step hearings
    dsimp only
    cases s.tuningOf service with
    | none => exact ⟨rfl,rfl⟩
    | some tuning => exact s.round_tells ⟨s.regulator,tuning,s.now,.deadline⟩
  | next id =>
    rw [step_next_rest]
    exact s.readItem_tells id
  | collect id =>
    rw [step_collect_rest]
    exact readItems_tells _ id s
  | poll id => exact s.pollHandle_hears id
  | acquire id unpolled | acquireBefore id within unpolled | acquireCancellable id given unpolled =>
    exact start_tells rfl
  | call id number plan unpolled =>
    unfold hearings
    dsimp only
    rcases s.call_cases id number plan with ⟨_,_,_,lost⟩ | ⟨_,_,_,_,_,started⟩
    · obtain ⟨turn,ran⟩ := lost unpolled
      rw [turn,step,ran]
      exact ⟨rfl,rfl⟩
    · rw [(started unpolled).1]
      exact start_tells (started unpolled).1
  | drop id =>
    obtain ⟨ops,released⟩ := s.release_trace id
    have only : (s.step (.drop id)).2.2 = .ofOps ops := released
    rw [only]
    exact ⟨rfl,rfl⟩
  | tryAcquire =>
    rw [step_tryAcquire_rest]
    exact ⟨rfl,rfl⟩
  | drain most =>
    rw [step_drain_rest]
    exact drain_tells most 0 s
  | acquireAwait =>
    have silent : s.acquireAwait.2.2.Tells [] := by
      unfold acquireAwait
      dsimp only
      split
      · split <;> exact ⟨rfl,rfl⟩
      · exact ⟨rfl,rfl⟩
    exact silent
  | setRate rate =>
    refine ⟨rfl,?_⟩
    unfold step
    dsimp only
    split <;> rfl
  | pollReady number inner =>
    unfold step pollReady
    dsimp only
    split <;> exact ⟨rfl,rfl⟩
  | advance | contains | stats | layer | cancel => exact ⟨rfl,rfl⟩
  | instanceOf | clone | shareService | shareLayer | callState | unwrap =>
    unfold step
    dsimp only
    split <;> exact ⟨rfl,rfl⟩

def allHearings (s : Session α) : List (Action α) → List Hearing
  | [] => []
  | action :: rest => s.hearings action ++ (s.step action).2.1.allHearings rest

def verdicts (s : Session α) (actions : List (Action α)) : List Verdict :=
  (s.run actions).1.flatMap fun ran => ran.2.verdicts

theorem run_tells (s : Session α) (actions : List (Action α)) :
    s.verdicts actions = (s.allHearings actions).map Hearing.verdict ∧
    s.metrics actions = (s.allHearings actions).flatMap Hearing.metrics := by
  induction actions generalizing s with
  | nil => exact ⟨rfl,rfl⟩
  | cons action rest ih =>
    obtain ⟨verdicts,metrics⟩ := s.step_tells action
    obtain ⟨later,laterMetrics⟩ := ih (s.step action).2.1
    have told : s.verdicts (action :: rest) = (s.step action).2.2.verdicts ++ (s.step action).2.1.verdicts rest := rfl
    rw [told,metrics_cons,allHearings,List.map_append,List.flatMap_append,verdicts,metrics,later,laterMetrics]
    exact ⟨rfl,rfl⟩

-- The last rate that a round committed.
def committed (verdicts : List Verdict) : Option Binary64 := (verdicts.filterMap Verdict.committed).getLast?

theorem committed_append (first later : List Verdict) :
    committed (first ++ later) = (committed later).or (committed first) := by
  unfold committed
  rw [List.filterMap_append,List.getLast?_append]

theorem committed_applied {verdict : Verdict} {verdicts : List Verdict} (member : verdict ∈ verdicts)
    (applied : verdict.isApplied) : ∃ rate, committed verdicts = some rate := by
  cases verdict with
  | applied previous current =>
    have among : current ∈ verdicts.filterMap Verdict.committed := List.mem_filterMap.mpr ⟨_,member,rfl⟩
    exact Option.isSome_iff_exists.mp (List.getLast?_isSome.mpr (List.ne_nil_of_mem among))
  | noSignal | outOfBounds | coolingDown => cases applied

theorem effect_current {r changed : Regulator} {now : Nanos} {ops : List Bucket.Op} {verdicts : List Verdict}
    (effect : Effect r now ops verdicts changed) :
    changed.current = (committed verdicts).getD r.current := by
  cases effect with
  | settled settled =>
    rcases settled with ⟨rate,_,rfl,rfl⟩ | ⟨kept,rfl⟩
    · rfl
    · rename_i verdict
      cases verdict with
      | applied previous current => cases kept
      | noSignal | outOfBounds | coolingDown => rfl
  | operated => rfl

theorem later_current {x y : List Verdict} {first middle last : Binary64} (one : middle = (committed x).getD first)
    (two : last = (committed y).getD middle) : last = (committed (x ++ y)).getD first := by
  rw [committed_append,two,one]
  cases committed y <;> rfl

theorem moves_current (moves : Moves Move s trace after) :
    after.regulator.current = (committed trace.verdicts).getD s.regulator.current := by
  induction moves with
  | nil => rfl
  | cons move _ ih => exact later_current (effect_current move.effect) ih

theorem step_current (s : Session α) (action : Action α) :
    (s.step action).2.1.regulator.current = (committed (s.step action).2.2.verdicts).getD s.regulator.current := by
  rcases (s.step_stepped action).moves with ⟨rate,_,after,trace⟩ | ⟨_,middle,now,moves,_,after⟩
  · rw [after,trace]
    rfl
  · have clocked : (s.step action).2.1.regulator = middle.regulator := by rw [after]
    rw [clocked]
    exact moves_current moves

theorem run_current (s : Session α) (actions : List (Action α)) :
    (s.run actions).2.regulator.current = (committed (s.verdicts actions)).getD s.regulator.current := by
  induction actions generalizing s with
  | nil => rfl
  | cons action rest ih => exact later_current (s.step_current action) (ih _)

theorem pollHandle_failed (told : (s.pollHandle id).1 = .progress (.failed failure))
    (other : failure.isDeadline = false) : s.callHearings id = [] := by
  unfold callHearings
  cases found : s.calling id with
  | none => rfl
  | some call =>
    dsimp only
    cases inner : call.inner s with
    | none => rfl
    | some outcome =>
      cases outcome with
      | ok script => rfl
      | error answered =>
        have same : failure = answered := by
          rw [pollHandle_calling found,(pollCall_failed id inner).1] at told
          cases told
          rfl
        dsimp only
        rw [← same,if_neg (by simp [other])]

theorem step_failed {action : Action α} (told : (s.step action).1 = .progress (.failed failure))
    (other : failure.isDeadline = false) : s.hearings action = [] := by
  have started : ∀ {id unpolled}, s.turn action = .start id unpolled →
      (if unpolled then [] else (s.step action.left).2.1.callHearings id) = ([] : List Hearing) := by
    intro id unpolled turn
    obtain ⟨services,instances,handle,_,_,ran,left⟩ := start_launched turn
    cases unpolled with
    | true => rfl
    | false =>
      rw [ran,launch_polled] at told
      rw [left]
      exact pollHandle_failed told other
  cases action with
  | observe | observeDeadline | next | collect =>
    unfold step at told
    dsimp only at told
    split at told <;> cases told
  | poll id => exact pollHandle_failed told other
  | acquire | acquireBefore | acquireCancellable => exact started rfl
  | call id number plan unpolled =>
    unfold hearings
    dsimp only
    rcases s.call_cases id number plan with ⟨_,_,_,lost⟩ | ⟨_,_,_,_,_,begun⟩
    · rw [(lost unpolled).1]
    · rw [(begun unpolled).1]
      exact started (begun unpolled).1
  | _ => rfl

-- Rounds from wherever they come are counted once each, and nothing else changes a metric.
theorem metrics_accounted (s : Session α) (actions : List (Action α)) :
    let rounds := s.allHearings actions
    let metrics := s.metrics actions
    let after := (s.run actions).2
    s.verdicts actions = rounds.map Hearing.verdict ∧ Hearing.Tallied rounds metrics ∧
    (Metric.records "cpu_throttle_observed_cpu" metrics).length =
      Metric.total "cpu_throttle_adjustments_total" none metrics +
        Metric.total "cpu_throttle_adjustments_skipped_total" (some ("reason","out_of_bounds")) metrics +
        Metric.total "cpu_throttle_adjustments_skipped_total" (some ("reason","cooldown")) metrics +
        rounds.countP (fun h => h.Overflows) ∧
    (Metric.settings "cpu_throttle_rate" metrics).getLast?.getD s.regulator.current = after.snapshot.current ∧
    ((∃ h ∈ rounds, h.verdict.isApplied) →
      (Metric.settings "cpu_throttle_rate" metrics).getLast? = some after.snapshot.current) ∧
    ∀ before action rest, actions = before ++ action :: rest →
      let found := (s.run before).2
      let changed := (found.step action).2.2.notices.flatMap Notice.metrics
      changed = (found.hearings action).flatMap Hearing.metrics ∧
      (∀ rate, action = .setRate rate → changed = []) ∧
      (∀ failure, (found.step action).1 = .progress (.failed (.gate failure)) → changed = []) ∧
      ∀ h ∈ found.hearings action, h.busiest = none →
        h.metrics =
          if h.stimulus.isDeadline then [⟨"cpu_throttle_deadline_signals_total",none,.increment 1⟩] else [] := by
  intro rounds metrics after
  obtain ⟨verdicts,told⟩ := s.run_tells actions
  have tallied : Hearing.Tallied rounds metrics := by
    rw [show metrics = _ from told]
    exact Hearing.tallied rounds
  have last : (Metric.settings "cpu_throttle_rate" metrics).getLast? = committed (s.verdicts actions) := by
    rw [tallied.rates,committed,verdicts,List.filterMap_map]
    rfl
  have current : after.snapshot.current = (committed (s.verdicts actions)).getD s.regulator.current :=
    s.run_current actions
  refine ⟨verdicts,tallied,?_,?_,?_,?_⟩
  · rw [tallied.loads,tallied.adjustments,tallied.outOfBounds,tallied.coolingDown]
    exact Hearing.loads_counted rounds
  · rw [last,current]
  · rintro ⟨h,member,applied⟩
    have among : h.verdict ∈ s.verdicts actions := by
      rw [verdicts]
      exact List.mem_map_of_mem member
    obtain ⟨rate,same⟩ := committed_applied among applied
    rw [last,current,same]
    rfl
  · intro before action rest _ found changed
    have each : changed = (found.hearings action).flatMap Hearing.metrics := (found.step_tells action).metrics
    refine ⟨each,?_,?_,fun h _ unusable => h.metrics_unusable unusable⟩
    · rintro rate rfl
      rw [each]
      rfl
    · intro failure failed
      rw [each,step_failed failed rfl]
      rfl

-- Rounds with every outcome, from a stream, a failed call and signals.
theorem metrics_accounted_six_rounds :
    let steady : Tuning := ⟨50,10 * Nanos.perSecond,none⟩
    let opened : Session Unit := ⟨0,⟨1,100,10,none,⟨10,1,1,0⟩⟩,steady,[⟨.fresh 0,⟨50,0,some 0⟩⟩],
      [(0,.relaying (.new [.response ⟨(),some [⟨"a",25⟩,⟨"b",.nan⟩]⟩] steady))],1,0⟩
    let faint := Binary64.ofBits 1
    let actions : List (Action Unit) :=
      [.next 0,.observe none [40],.call 1 0 ⟨none,0,.error .elapsed⟩ false,.call 2 0 ⟨none,0,.error .elapsed⟩ false,
        .observe none [1],.observe none [],.observe none [faint],.setRate 7]
    let metrics := opened.metrics actions
    (opened.allHearings actions).map (fun h => (h.verdict.name,h.stimulus.isDeadline,h.busiest)) =
      [("Applied",false,some 25),("CoolingDown",false,some 40),("Applied",true,some Load.overload),
        ("OutOfBounds",false,some 1),("NoSignal",false,none),("NoSignal",false,some faint)] ∧
    (Metric.total "cpu_throttle_adjustments_total" none metrics,
      Metric.total "cpu_throttle_deadline_signals_total" none metrics,
      (Metric.records "cpu_throttle_observed_cpu" metrics).length) = (2,1,5) ∧
    Hearing.Tallied (opened.allHearings actions) metrics ∧
    (Metric.settings "cpu_throttle_rate" metrics).getLast? = some (opened.run actions).2.regulator.current ∧
    (opened.run actions).2.regulator.current = 20 * (50 / Load.overload) := by
  intro steady opened faint actions metrics
  obtain ⟨_,tallied,_,_,gauge,_⟩ := opened.metrics_accounted actions
  have some_ : ∃ h ∈ opened.allHearings actions, h.verdict.isApplied := by
    refine List.any_eq_true.mp ?_
    decide +kernel
  exact ⟨by decide +kernel,by decide +kernel,tallied,gauge some_,by decide +kernel⟩

end Session
end LoadPacing
