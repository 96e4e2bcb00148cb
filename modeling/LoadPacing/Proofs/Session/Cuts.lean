import LoadPacing.Proofs.Regulator.Cuts
import LoadPacing.Proofs.Session.Hearings
import LoadPacing.Proofs.Session.Targets

-- Streams and calls bring nothing but readings of a full load at most, so a round cuts by a bounded factor.
namespace LoadPacing

def Verdict.steer (rate : Binary64) (verdict : Verdict) : Binary64 :=
  match verdict.committed with
  | some current => if current.Positive then current else rate
  | none => rate

theorem Regulator.Settled.steered {r after : Regulator} (settled : r.Settled now verdict after) :
    after.bucket.rate = verdict.steer r.bucket.rate := by
  rcases settled with ⟨rate,_,rfl,rfl⟩ | ⟨unapplied,rfl⟩
  · show (r.bucket.retune rate).rate = if rate.Positive then rate else r.bucket.rate
    unfold Bucket.retune
    split <;> rfl
  · cases verdict with
    | applied previous current => cases unapplied
    | noSignal | outOfBounds | coolingDown => rfl

def Hearing.Successive : Binary64 → List Hearing → Binary64 → Prop
  | first, [], last => last = first
  | first, h :: later, last => h.regulator.bucket.rate = first ∧ Successive h.outcome.2.1.bucket.rate later last

theorem Hearing.Successive.append {first middle last : Binary64} {rounds later : List Hearing}
    (one : Successive first rounds middle) (two : Successive middle later last) :
    Successive first (rounds ++ later) last := by
  induction rounds generalizing first with
  | nil => exact (one : middle = first) ▸ two
  | cons h rest ih => exact ⟨one.1,ih one.2⟩

theorem Signal.stimulus_capped (signal : Signal) : signal.stimulus.Capped := by
  cases signal with
  | response report => exact fun x member => Load.sample_capped member
  | deadline => exact Stimulus.deadline_capped

namespace Session
variable {s after : Session α} {trace : Trace α} {action : Action α} {rounds : List Hearing}

def Flowing (s : Session α) : Prop := s.regulator.Flowing

theorem effect_flowing {r changed : Regulator} {now : Nanos} {ops : List Bucket.Op} {verdicts : List Verdict}
    (flowing : r.Flowing) (effect : Effect r now ops verdicts changed) :
    changed.Flowing ∧ changed.bucket.rate = verdicts.foldl Verdict.steer r.bucket.rate := by
  cases effect with
  | settled settled => exact ⟨flowing.settled settled,settled.steered⟩
  | operated inward =>
    have same := r.bucket.run_rate ops inward
    exact ⟨⟨flowing.lower,flowing.upper,same ▸ flowing.flows⟩,same⟩

theorem moves_flowing (flowing : s.Flowing) (moves : Moves Move s trace after) :
    after.Flowing ∧ after.regulator.bucket.rate = trace.verdicts.foldl Verdict.steer s.regulator.bucket.rate := by
  induction moves with
  | nil => exact ⟨flowing,rfl⟩
  | cons move _ ih =>
    obtain ⟨middle,here⟩ := effect_flowing flowing move.effect
    obtain ⟨last,there⟩ := ih middle
    refine ⟨last,?_⟩
    rw [there,here,Trace.append_verdicts,List.foldl_append]

theorem step_flowing (flowing : s.Flowing) (action : Action α) : (s.step action).2.1.Flowing := by
  rcases (s.step_stepped action).moves with ⟨rate,_,left,_⟩ | ⟨_,middle,now,moves,_,left⟩
  · rw [left]
    exact ⟨flowing.lower,flowing.upper,Bucket.retune_flows flowing.flows rate⟩
  · have kept := (moves_flowing flowing moves).1
    rw [left]
    exact kept

theorem run_flowing (flowing : s.Flowing) (actions : List (Action α)) : (s.run actions).2.Flowing :=
  run_always flowing (fun action flowing => step_flowing flowing action) actions

inductive Heard (s : Session α) : List Hearing → Prop where
  | none : Heard s []
  | one {h : Hearing} (bounded : h.Bounded) (rate : h.regulator.bucket.rate = s.regulator.bucket.rate) : Heard s [h]

theorem Heard.bounded (heard : s.Heard rounds) : ∀ h ∈ rounds, h.Bounded := by
  cases heard with
  | none => exact List.forall_mem_nil _
  | one bounded _ => exact List.forall_mem_singleton.mpr bounded

theorem Heard.from_ {other : Session α} (heard : other.Heard rounds)
    (same : other.regulator.bucket.rate = s.regulator.bucket.rate) : s.Heard rounds := by
  cases heard with
  | none => exact .none
  | one bounded rate => exact .one bounded (rate.trans same)

theorem Heard.successive (heard : s.Heard rounds) (flowing : s.Flowing) (moves : Moves Move s trace after)
    (told : trace.Tells rounds) :
    Hearing.Successive s.regulator.bucket.rate rounds after.regulator.bucket.rate := by
  have steered := (moves_flowing flowing moves).2
  rw [told.verdicts] at steered
  cases heard with
  | none => exact steered
  | @one h _ own =>
    have settled := h.outcome_settled.steered
    rw [own] at settled
    exact ⟨own,steered.trans settled.symm⟩

theorem readHearings_heard (checked : s.Checked) (flowing : s.Flowing) (id : Nat) : s.Heard (s.readHearings id) := by
  unfold readHearings
  cases found : s.stream id with
  | none => exact .none
  | some relay =>
    have tuned : relay.tuning.Checked := checked.handles id _ (stream_found found)
    dsimp only
    cases relay.next.2.2.signal? with
    | none => exact .none
    | some signal => exact .one ⟨flowing,tuned.aimed,signal.stimulus_capped⟩ rfl

theorem callHearings_heard (checked : s.Checked) (flowing : s.Flowing) (id : Nat) : s.Heard (s.callHearings id) := by
  unfold callHearings
  cases found : s.calling id with
  | none => exact .none
  | some call =>
    have tuned := checked.calling (calling_found found)
    have rate := (gated_kept call s).2.2
    have gated : (call.gated s).Flowing := by
      refine ⟨?_,?_,rate ▸ flowing.flows⟩
      · unfold Call.gated
        split <;> exact flowing.lower
      · unfold Call.gated
        split <;> exact flowing.upper
    dsimp only
    split
    · split
      · exact .one ⟨gated,tuned.aimed,Stimulus.deadline_capped⟩ rate
      · exact .none
    · exact .none

theorem collectHearings_bounded (checked : s.Checked) (flowing : s.Flowing) (fuel id : Nat) :
    (∀ h ∈ collectHearings fuel id s, h.Bounded) ∧
    Hearing.Successive s.regulator.bucket.rate (collectHearings fuel id s)
      (readItems fuel id s).2.1.regulator.bucket.rate := by
  refine readItems_induct (P := fun fuel s read => s.Checked → s.Flowing →
    (∀ h ∈ collectHearings fuel id s, h.Bounded) ∧
      Hearing.Successive s.regulator.bucket.rate (collectHearings fuel id s) read.2.1.regulator.bucket.rate)
    ?_ ?_ ?_ fuel s checked flowing
  · exact fun _ _ _ => ⟨List.forall_mem_nil _,rfl⟩
  · intro fuel s item ends read checked flowing
    have heard := readHearings_heard checked flowing id
    have first := heard.successive flowing (s.readItem_moves id).any (s.readItem_tells id)
    unfold collectHearings
    rw [read]
    rcases ends with rfl | rfl | rfl <;> exact ⟨by simpa using heard.bounded,by simpa using first⟩
  · intro fuel s item later going open_ read told checked flowing
    have moves := (s.readItem_moves id).any
    have heard := readHearings_heard checked flowing id
    have first := heard.successive flowing moves (s.readItem_tells id)
    obtain ⟨bounded,successive⟩ := told (checked.readItem id) (moves_flowing flowing moves).1
    unfold collectHearings
    rw [read]
    cases item with
    | pending => exact absurd rfl going
    | ended => exact absurd rfl open_
    | response | failure =>
      exact ⟨List.forall_mem_append.mpr ⟨heard.bounded,bounded⟩,first.append successive⟩

-- Only readings that are handed over directly may be above a full load.
theorem hearings_heard (checked : s.Checked) (flowing : s.Flowing)
    (handed : ∀ service samples, action ≠ .observe service samples) (gathered : ∀ id, action ≠ .collect id) : s.Heard (s.hearings action) := by
  have started : ∀ {id unpolled}, s.turn action = .start id unpolled →
      s.Heard (if unpolled then [] else (s.step action.left).2.1.callHearings id) := by
    intro id unpolled turn
    cases unpolled with
    | true => exact .none
    | false =>
      have left := callHearings_heard (checked.step action.left) (step_flowing flowing action.left) id
      obtain ⟨services,instances,handle,fresh,_,_,begun⟩ := start_launched turn
      let manned : Session α := { s with services, instances }
      obtain ⟨ops,released⟩ := release_trace manned id
      have same : (s.step action.left).2.1.regulator.bucket.rate = s.regulator.bucket.rate := by
        have kept := (moves_flowing (s := manned) flowing (launch_moves manned id true fresh)).2
        rw [show (manned.launch id handle true).2.2 = .ofOps ops from released] at kept
        rw [begun]
        exact kept
      exact left.from_ same
  cases action with
  | observe service samples => exact absurd rfl (handed service samples)
  | collect id => exact absurd rfl (gathered id)
  | observeDeadline service =>
    unfold hearings
    dsimp only
    cases tuned : s.tuningOf service with
    | none => exact .none
    | some tuning => exact .one ⟨flowing,(checked.tuningOf tuned).aimed,Stimulus.deadline_capped⟩ rfl
  | next id => exact readHearings_heard checked flowing id
  | poll id => exact callHearings_heard checked flowing id
  | acquire | acquireBefore | acquireCancellable => exact started rfl
  | call id number plan unpolled =>
    unfold hearings
    dsimp only
    split
    · exact started ‹_›
    · exact callHearings_heard checked flowing _
    · exact .none
    · exact .none
  | _ => exact .none

theorem step_cut (checked : s.Checked) (flowing : s.Flowing)
    (handed : ∀ service samples, action ≠ .observe service samples) :
    (∀ h ∈ s.hearings action, h.Bounded) ∧
    ((∀ rate, action ≠ .setRate rate) →
      Hearing.Successive s.regulator.bucket.rate (s.hearings action) (s.step action).2.1.regulator.bucket.rate) := by
  by_cases gathered : ∀ id, action ≠ .collect id
  · have heard := hearings_heard checked flowing handed gathered
    refine ⟨heard.bounded,?_⟩
    intro inside
    rcases (s.step_stepped action).moves with ⟨rate,outside,_⟩ | ⟨_,middle,now,moves,_,left⟩
    · exact absurd outside (inside rate)
    · have successive := heard.successive flowing moves (s.step_tells action)
      rw [left]
      exact successive
  · obtain ⟨id,taken⟩ := not_forall.mp gathered
    rw [not_ne_iff.mp taken,step_collect_rest]
    obtain ⟨bounded,successive⟩ := collectHearings_bounded checked flowing (s.scriptLength id + 1) id
    exact ⟨bounded,fun _ => successive⟩

theorem opened_flowing {settings shared : Settings}
    (opened : gate rate burst = .ok s ∨ ofLayer settings = .ok s ∨ ofLayerOver shared settings = .ok s ∨
      ofService settings = .ok s ∨ ofServiceOver shared settings = .ok s) : s.Flowing := by
  have regulated {own : Settings} (regulated : Regulated own s) : s.Flowing := by
    obtain ⟨sound,regulator⟩ := Regulator.new_ok regulated.2
    have flows := Binary64.positive_of_within sound.lower sound.upper sound.initial
    unfold Flowing
    rw [regulator]
    exact ⟨sound.lower,sound.upper,flows⟩
  rcases opened with gated | layer | layerOver | service | serviceOver
  · unfold gate at gated
    split at gated
    · cases gated
    · rename_i bucket made
      obtain ⟨flows,_,_,rfl⟩ := Bucket.new_ok made
      cases gated
      exact ⟨flows,flows,flows⟩
  · exact regulated (ofLayer_regulated layer)
  · exact regulated (ofLayerOver_regulated layerOver)
  · exact regulated (ofService_regulated service)
  · exact regulated (ofServiceOver_regulated serviceOver)

-- Whatever responses say, an applied round leaves at least the share of its target in a full load.
theorem cuts_bounded {settings shared : Settings}
    (opened : gate rate burst = .ok s ∨ ofLayer settings = .ok s ∨ ofLayerOver shared settings = .ok s ∨
      ofService settings = .ok s ∨ ofServiceOver shared settings = .ok s)
    (actions : List (Action α)) (handed : ∀ service samples, action ≠ .observe service samples) :
    let found := (s.run actions).2
    let ran := found.step action
    let rounds := found.hearings action
    ran.2.2.verdicts = rounds.map Hearing.verdict ∧
    ((∀ rate, action ≠ .setRate rate) →
      Hearing.Successive found.regulator.bucket.rate rounds ran.2.1.regulator.bucket.rate) ∧
    (∀ h ∈ rounds, ∀ previous current, h.verdict = .applied previous current →
      h.regulator.bucket.rate * (h.tuning.target / 100) ≤ current ∧ h.outcome.2.1.bucket.rate = current) ∧
    ∀ x ∈ Metric.records "cpu_throttle_observed_cpu" (ran.2.2.notices.flatMap Notice.metrics),
      0 < x ∧ x ≤ 100 := by
  intro found ran rounds
  have checked := (opened_checked opened).run actions
  have flowing := run_flowing (opened_flowing opened) actions
  obtain ⟨bounded,successive⟩ := step_cut checked flowing handed
  obtain ⟨verdicts,metrics⟩ := found.step_tells action
  refine ⟨verdicts,successive,?_,?_⟩
  · intro h member previous current applied
    exact ⟨(bounded h member).applied_floor applied,(bounded h member).applied_rate applied⟩
  · intro x member
    have loads := (Hearing.tallied rounds).loads
    rw [metrics,loads] at member
    obtain ⟨h,among,busiest⟩ := List.mem_filterMap.mp member
    have capped := (bounded h among).busiest_capped busiest
    exact ⟨capped.1.2,capped.2⟩

theorem cuts_bounded_wild_response :
    let settings := { Settings.default with cooldown := 0 }
    let opened : Session Unit := opening settings (settings.regulator 0)
    let readings : List Reading := [⟨"a",250⟩,⟨"b",.infinite false⟩,⟨"c",.nan⟩]
    let call : Action Unit := .call 0 0 ⟨none,0,.ok [.response ⟨(),some readings⟩]⟩ false
    let found := (opened.run [call]).2
    ofLayer settings = .ok opened ∧
    (found.hearings (.next 0)).map Hearing.verdict = [.applied 10000 (10000 * (70 / 100))] ∧
    (∀ h ∈ found.hearings (.next 0), ∀ previous current, h.verdict = .applied previous current →
      h.regulator.bucket.rate * (h.tuning.target / 100) ≤ current ∧ h.outcome.2.1.bucket.rate = current) := by
  intro settings opened readings call found
  have valid : settings.validate = .ok () := by decide +kernel
  have made : ofLayer settings = .ok opened := by
    rw [ofLayer_checked,valid]
    rfl
  have built : gate 1 0 = .ok opened ∨ ofLayer settings = .ok opened ∨ ofLayerOver settings settings = .ok opened ∨
      ofService settings = .ok opened ∨ ofServiceOver settings settings = .ok opened := .inr (.inl made)
  have handed : ∀ service samples, Action.next 0 ≠ (.observe service samples : Action Unit) := nofun
  obtain ⟨_,_,cuts,_⟩ := cuts_bounded built [call] handed
  exact ⟨made,by decide +kernel,cuts⟩

end Session
end LoadPacing
