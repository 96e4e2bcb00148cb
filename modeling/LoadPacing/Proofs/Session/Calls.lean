import LoadPacing.Proofs.Session.Docket

-- A call is issued on the backend in the poll that gets its permit, once and in no other way.
namespace LoadPacing

namespace Wait
variable {w : Wait} {now : Nanos} {b : Bucket}

theorem poll_refused (fresh : w.booked = none) :
    (w.poll now b).outcome = .failed .timedOut ↔
      ∃ ready, (b.refill now).readyAt now = some ready ∧ ¬ w.terms.Accept ready := by
  unfold poll Bucket.reserve
  rw [fresh]
  cases at_ : (b.refill now).readyAt now with
  | none => simp
  | some ready =>
    by_cases accepted : w.terms.Accept ready
    · simp only [accepted,if_true,Option.some.injEq,exists_eq_left',not_true,iff_false]
      split
      · nofun
      · unfold hold
        split <;> nofun
    · simp [accepted]

theorem poll_held (held : w.booked = some ready) : (w.poll now b).outcome ≠ .failed .timedOut := by
  have polling := w.poll_polling now b
  generalize w.poll now b = polled at polling
  cases polling with
  | overflow fresh | refused fresh | atOnce fresh | cancelledAtOnce fresh | begun fresh =>
    rw [held] at fresh
    cases fresh
  | woken | cancelled | asleep => nofun

theorem poll_pending (pending : (w.poll now b).outcome = .pending) :
    ∃ ready, (w.poll now b).wait.booked = some ready := by
  have polling := w.poll_polling now b
  generalize w.poll now b = polled at polling pending
  cases polling with
  | overflow | refused | atOnce | cancelledAtOnce | woken | cancelled => cases pending
  | begun => exact ⟨_,rfl⟩
  | asleep held => exact ⟨_,held⟩

end Wait

namespace Call
variable {call next : Call α} {s : Session α}

theorem next_cases (left : call.next s = some next) :
    (∃ wait polled ready, call.stage = .atGate wait ∧ call.gate s = some polled ∧ polled.outcome = .pending ∧
      polled.wait.booked = some ready ∧ next = { call with stage := .atGate polled.wait }) ∨
    ∃ pauses, call.reached s = some (pauses + 1) ∧ next = { call with stage := .issued pauses } := by
  unfold Call.next at left
  cases reached : call.reached s with
  | some pauses =>
    rw [reached] at left
    cases pauses with
    | zero => cases left
    | succ pauses => exact .inr ⟨pauses,rfl,(Option.some.inj left).symm⟩
  | none =>
    rw [reached] at left
    obtain ⟨polled,gate,kept⟩ := Option.bind_eq_some_iff.mp left
    split at kept
    · rename_i pending
      refine .inl ?_
      unfold Call.gate at gate
      cases stage : call.stage with
      | issued pauses => rw [stage] at gate; cases gate
      | atGate wait =>
        rw [stage] at gate
        cases gate
        obtain ⟨ready,booked⟩ := Wait.poll_pending pending
        exact ⟨wait,_,ready,rfl,by simp [Call.gate,stage],pending,booked,(Option.some.inj kept).symm⟩
    · cases kept

-- A call at the gate is past its first poll.
def Booked (call : Call α) : Prop := ∀ wait, call.stage = .atGate wait → ∃ ready, wait.booked = some ready

theorem next_booked (left : call.next s = some next) : next.Booked := by
  intro wait stage
  rcases next_cases left with ⟨_,_,ready,_,_,_,booked,rfl⟩ | ⟨_,_,rfl⟩
  · cases stage
    exact ⟨ready,booked⟩
  · cases stage

theorem next_same (left : call.next s = some next) : next = { call with stage := next.stage } := by
  rcases next_cases left with ⟨_,_,_,_,_,_,_,rfl⟩ | ⟨_,_,rfl⟩ <;> rfl

theorem reached_ready (gate : call.gate s = some polled) (reached : call.reached s = some pauses) :
    polled.outcome = .ready := by
  unfold Call.gate at gate
  unfold Call.reached at reached
  cases stage : call.stage with
  | issued => rw [stage] at gate; cases gate
  | atGate wait =>
    rw [stage] at gate reached
    cases gate
    dsimp only at reached
    split at reached
    · assumption
    · cases reached

theorem next_stopped (gate : call.gate s = some polled) (stopped : polled.outcome ≠ .pending)
    (early : polled.outcome ≠ .ready) : call.next s = none := by
  cases left : call.next s with
  | none => rfl
  | some next =>
    rcases next_cases left with ⟨_,_,_,_,same,pending,_⟩ | ⟨pauses,reached,_⟩
    · rw [gate] at same
      cases same
      exact absurd pending stopped
    · exact absurd (reached_ready gate reached) early

theorem next_answered (answered : call.inner s = some outcome) : call.next s = none := by
  unfold Call.inner at answered
  split at answered
  · rename_i reached
    unfold Call.next
    rw [reached]
    rfl
  · cases answered

end Call

-- Poll after poll finds a call at the gate until its wait is over, and none does later.
def Course : List (Option Wait.Outcome) → Prop
  | [] => True
  | some .pending :: rest => Course rest
  | some .ready :: rest => ∀ later ∈ rest, later = none
  | some (.failed _) :: rest | some .overflow :: rest => rest = []
  | none :: _ => False

namespace Visit
variable {call : Call α} {visit : Visit α} {visits : List (Visit α)} {last : Option (Call α)}

def answer (visit : Visit α) : Answer α := visit.ran.1

def after (visit : Visit α) : Session α := visit.ran.2.1

def notices (visit : Visit α) : List Notice := visit.ran.2.2.notices

def verdicts (visit : Visit α) : List Verdict := visit.ran.2.2.verdicts

-- The regulator as the gate leaves it in this poll.
def gated (visit : Visit α) : Regulator := visit.call.gated visit.session

theorem Faithful.comes (faithful : visit.Faithful) :
    let polled := visit.session.pollCall visit.id visit.call
    visit.answer = .progress polled.1 ∧ visit.after = polled.2.1 ∧ visit.issues = polled.2.2.issues ∧
    visit.notices = polled.2.2.notices ∧ visit.verdicts = polled.2.2.verdicts := by
  obtain ⟨ops,ran⟩ := faithful
  unfold answer after issues notices verdicts
  rw [ran]
  exact ⟨rfl,rfl,rfl,rfl,rfl⟩

theorem Faithful.issued (faithful : visit.Faithful) :
    visit.issues = if visit.gate = some .ready then [visit.call.issue] else [] := by
  rw [faithful.comes.2.2.1]
  exact Session.pollCall_issues _ _ _

theorem Faithful.stopped (faithful : visit.Faithful) (gate : visit.gate = some outcome) (early : outcome ≠ .ready) :
    visit.answer = .progress (.ofOutcome outcome) ∧ visit.notices = [] ∧ visit.verdicts = [] ∧
    visit.after.regulator.current = visit.session.regulator.current ∧
    visit.after.regulator.lastCommit = visit.session.regulator.lastCommit ∧
    visit.after.regulator.bucket.rate = visit.session.regulator.bucket.rate := by
  obtain ⟨answer,after,_,notices,verdicts⟩ := faithful.comes
  obtain ⟨polled,here,rfl⟩ := Option.map_eq_some_iff.mp gate
  have stopped : visit.call.reached visit.session = none := by
    cases reached : visit.call.reached visit.session with
    | none => rfl
    | some pauses => exact absurd (Call.reached_ready here reached) early
  have quiet : visit.call.inner visit.session = none := by simp [Call.inner,stopped]
  obtain ⟨regulator,silent,idle⟩ := Session.pollCall_quiet visit.id quiet
  rw [answer,after,notices,verdicts,regulator,silent,idle,Session.pollCall_answer stopped visit.id here]
  exact ⟨rfl,rfl,rfl,Session.gated_kept visit.call visit.session⟩

theorem Faithful.failed {failure : Failure} (faithful : visit.Faithful) (failed : visit.inner = some (.error failure)) :
    visit.answer = .progress (.failed failure) ∧
    (visit.verdicts,visit.after.regulator,visit.notices) =
      if failure.isDeadline then
        let round := visit.gated.observeDeadline visit.call.tuning visit.session.now
        ([round.1],round.2.1,round.2.2)
      else ([],visit.gated,[]) := by
  obtain ⟨answer,after,_,notices,verdicts⟩ := faithful.comes
  obtain ⟨told,settled⟩ := Session.pollCall_failed visit.id failed
  rw [answer,after,notices,verdicts,told]
  exact ⟨rfl,settled⟩

def missed : Except Failure (Script α) → Bool
  | .error failure => failure.isDeadline
  | .ok _ => false

theorem Faithful.rounds (faithful : visit.Faithful) :
    visit.verdicts.length = visit.inner.toList.countP missed := by
  cases answered : visit.inner with
  | none =>
    obtain ⟨_,_,idle⟩ := Session.pollCall_quiet visit.id answered
    rw [faithful.comes.2.2.2.2,idle]
    rfl
  | some outcome =>
    cases outcome with
    | ok script =>
      obtain ⟨_,_,_,idle⟩ := Session.pollCall_streams visit.id answered
      rw [faithful.comes.2.2.2.2,idle]
      rfl
    | error failure =>
      have settled := (faithful.failed answered).2
      cases deadline : failure.isDeadline with
      | true =>
        rw [deadline] at settled
        have one : visit.verdicts = [_] := congrArg Prod.fst settled
        simp [one,missed,deadline]
      | false =>
        rw [deadline] at settled
        have none : visit.verdicts = [] := congrArg Prod.fst settled
        simp [none,missed,deadline]

theorem Path.faithful (path : Path first visits last) : ∀ visit ∈ visits, visit.Faithful := by
  induction path with
  | nil => exact List.forall_mem_nil _
  | cons faithful _ ih => exact List.forall_mem_cons.mpr ⟨faithful,ih⟩

theorem Path.head (path : Path (some call) (visit :: rest) last) :
    visit.call = call ∧ Path visit.left rest last := by
  cases path with
  | cons _ later => exact ⟨rfl,later⟩

theorem Path.stopped (path : Path none visits last) : visits = [] := by
  cases path
  rfl

theorem Path.kept (path : Path first visits last) (Kept : Call α → Prop)
    (keeps : ∀ {s call next}, Kept call → call.next s = some next → Kept next)
    (begins : ∀ call ∈ first, Kept call) : ∀ visit ∈ visits, Kept visit.call := by
  induction path with
  | nil => exact List.forall_mem_nil _
  | @cons rest last visit faithful later ih =>
    have now : Kept visit.call := begins _ rfl
    exact List.forall_mem_cons.mpr ⟨now,ih fun next left => keeps now left⟩

theorem Path.same (path : Path (some call) visits last) :
    ∀ visit ∈ visits, visit.call = { call with stage := visit.call.stage } := by
  refine path.kept (fun later => later = { call with stage := later.stage }) ?_ ?_
  · intro s before next kept left
    rw [Call.next_same left,kept]
  · intro start same
    cases same
    rfl

theorem Path.issued (path : Path first visits last) (issued : ∀ call ∈ first, ∃ pauses, call.stage = .issued pauses) :
    ∀ visit ∈ visits, visit.gate = none := by
  have stays := path.kept (fun call => ∃ pauses, call.stage = .issued pauses) ?_ issued
  · intro visit member
    obtain ⟨pauses,stage⟩ := stays visit member
    simp [Visit.gate,Call.gate,stage]
  · intro s call next ⟨pauses,stage⟩ left
    rcases Call.next_cases left with ⟨wait,_,_,gated,_⟩ | ⟨more,_,rfl⟩
    · rw [stage] at gated
      cases gated
    · exact ⟨more,rfl⟩

-- Only the first poll of a wait can find that its permit would come too late.
theorem Path.booked (path : Path first visits last) (booked : ∀ call ∈ first, call.Booked) :
    ∀ visit ∈ visits, visit.gate ≠ some (.failed .timedOut) := by
  have stays := path.kept Call.Booked (fun _ left => Call.next_booked left) booked
  intro visit member
  unfold Visit.gate Call.gate
  cases stage : visit.call.stage with
  | issued pauses => nofun
  | atGate wait =>
    obtain ⟨ready,held⟩ := stays visit member wait stage
    intro refused
    exact Wait.poll_held held (Option.some.inj refused)

theorem Path.course (path : Path first visits last) (atGate : ∀ call ∈ first, ∃ wait, call.stage = .atGate wait) :
    Course (visits.map Visit.gate) := by
  induction path with
  | nil => trivial
  | @cons rest last visit faithful later ih =>
    obtain ⟨wait,stage⟩ := atGate visit.call rfl
    have gate : visit.call.gate visit.session = some (wait.poll visit.session.now visit.session.regulator.bucket) := by
      simp [Call.gate,stage]
    generalize wait.poll visit.session.now visit.session.regulator.bucket = polled at gate
    have here : visit.gate = some polled.outcome := by rw [Visit.gate,gate]; rfl
    rw [List.map_cons,here]
    cases outcome : polled.outcome with
    -- Whoever is left pending is at the gate again; the others do not come back to it.
    | pending =>
      refine ih ?_
      intro next left
      rcases Call.next_cases left with ⟨_,_,_,_,_,_,_,rfl⟩ | ⟨pauses,reached,_⟩
      · exact ⟨_,rfl⟩
      · have ready := Call.reached_ready gate reached
        rw [outcome] at ready
        cases ready
    | ready =>
      intro answer member
      obtain ⟨visited,among,rfl⟩ := List.mem_map.mp member
      refine later.issued ?_ visited among
      intro next left
      rcases Call.next_cases left with ⟨_,_,_,_,same,pending,_⟩ | ⟨pauses,_,rfl⟩
      · rw [gate] at same
        cases same
        rw [outcome] at pending
        cases pending
      · exact ⟨pauses,rfl⟩
    | failed failure | overflow =>
      have gone : visit.left = none :=
        Call.next_stopped gate (by rw [outcome]; nofun) (by rw [outcome]; nofun)
      rw [gone] at later
      rw [later.stopped]
      rfl

theorem Path.inner_once (path : Path first visits last) : (visits.filterMap Visit.inner).length ≤ 1 := by
  induction path with
  | nil => exact Nat.zero_le 1
  | @cons rest last visit faithful later ih =>
    cases answered : visit.inner with
    | none => rwa [List.filterMap_cons_none answered]
    | some outcome =>
      have gone : visit.left = none := Call.next_answered answered
      rw [gone] at later
      rw [later.stopped,List.filterMap_cons_some answered]
      exact Nat.le_refl 1

end Visit

namespace Case

def Completed (case : Case α) : Prop := some Wait.Outcome.ready ∈ case.visits.map Visit.gate

instance (case : Case α) : Decidable case.Completed := inferInstanceAs (Decidable (_ ∈ _))

structure Settled (case : Case α) : Prop where
  course : Course (case.visits.map Visit.gate)
  issued : ∀ visit ∈ case.visits, visit.issues = if visit.gate = some .ready then [case.call.issue] else []
  once : case.issues = if case.Completed then [case.call.issue] else []
  since : ∀ visit ∈ case.visits, case.made ≤ visit.session.now
  -- Its first poll tells whether the permit would come too late.
  refused : ∀ first rest, case.visits = first :: rest →
    (first.gate = some (.failed .timedOut) ↔ ∃ timeout ready, case.call.tuning.timeout = some timeout ∧
      first.ready = some ready ∧ case.made + timeout < ready) ∧
    ∀ later ∈ rest, later.gate ≠ some (.failed .timedOut)
  stopped : ∀ visit ∈ case.visits, ∀ outcome, visit.gate = some outcome → outcome ≠ .ready →
    visit.answer = .progress (.ofOutcome outcome) ∧ visit.notices = [] ∧ visit.verdicts = [] ∧
    visit.after.regulator.current = visit.session.regulator.current ∧
    visit.after.regulator.lastCommit = visit.session.regulator.lastCommit ∧
    visit.after.regulator.bucket.rate = visit.session.regulator.bucket.rate
  answered : (case.visits.filterMap Visit.inner).length ≤ 1 ∧
    ∀ outcome ∈ case.visits.filterMap Visit.inner, outcome = case.call.plan.outcome
  failed : ∀ visit ∈ case.visits, ∀ failure, visit.inner = some (.error failure) →
    visit.answer = .progress (.failed failure) ∧
    (visit.verdicts,visit.after.regulator,visit.notices) =
      if failure.isDeadline then
        let round := visit.gated.observeDeadline case.call.tuning visit.session.now
        ([round.1],round.2.1,round.2.2)
      else ([],visit.gated,[])
  rounds : (case.visits.flatMap Visit.verdicts).length = (case.visits.filterMap Visit.inner).countP Visit.missed

variable {case : Case α} {last : Option (Call α)} {issue : Issue α}

theorem issues_once (visits : List (Visit α))
    (issued : ∀ visit ∈ visits, visit.issues = if visit.gate = some .ready then [issue] else [])
    (course : Course (visits.map Visit.gate)) :
    visits.flatMap Visit.issues = if some .ready ∈ visits.map Visit.gate then [issue] else [] := by
  induction visits with
  | nil => rfl
  | cons visit rest ih =>
    obtain ⟨first,others⟩ := List.forall_mem_cons.mp issued
    rw [List.map_cons] at course ⊢
    rw [List.flatMap_cons,first]
    cases gate : visit.gate with
    | none => rw [gate] at course; exact course.elim
    | some outcome =>
      rw [gate] at course
      cases outcome with
      | pending => simpa using ih others course
      | ready =>
        have past : rest.flatMap Visit.issues = [] := by
          rw [List.flatMap_eq_nil_iff]
          intro later member
          rw [others later member,course _ (List.mem_map_of_mem member)]
          rfl
        simp [past]
      | failed | overflow =>
        have gone : rest = [] := List.map_eq_nil_iff.mp course
        simp [gone]

theorem rounds_missed (visits : List (Visit α)) (faithful : ∀ visit ∈ visits, visit.Faithful) :
    (visits.flatMap Visit.verdicts).length = (visits.filterMap Visit.inner).countP Visit.missed := by
  induction visits with
  | nil => rfl
  | cons visit rest ih =>
    obtain ⟨first,others⟩ := List.forall_mem_cons.mp faithful
    rw [List.flatMap_cons,List.length_append,first.rounds,ih others,List.filterMap_cons]
    cases visit.inner with
    | none => simp
    | some outcome => rw [Option.toList_some,← List.countP_append]; rfl

theorem refused_first {first : Visit α} (made : case.call.Made case.made) (same : first.call = case.call) :
    first.gate = some (.failed .timedOut) ↔ ∃ timeout ready, case.call.tuning.timeout = some timeout ∧
      first.ready = some ready ∧ case.made + timeout < ready := by
  obtain ⟨terms,stage,limit⟩ := made
  have gate : first.gate =
      some ((Wait.start terms .absent).poll first.session.now first.session.regulator.bucket).outcome := by
    simp [Visit.gate,Call.gate,same,stage]
  have fresh : (Wait.start terms .absent).booked = none := rfl
  rw [gate,Option.some.injEq,Wait.poll_refused fresh,Visit.ready]
  cases limited : case.call.tuning.timeout with
  | none =>
    rw [limited] at limit
    cases limit
    constructor
    · intro ⟨ready,_,late⟩
      exact absurd trivial late
    · nofun
  | some timeout =>
    rw [limited] at limit
    cases limit
    have late : ∀ ready : Nanos,
        ¬ (Terms.by ((case.made + timeout : Nat) : Int)).Accept ready ↔ case.made + timeout < ready := by
      intro ready
      exact Int.not_le.trans Int.ofNat_lt
    constructor
    · intro ⟨ready,at_,refused⟩
      exact ⟨timeout,ready,rfl,at_,(late ready).mp refused⟩
    · intro ⟨limit,ready,same,at_,after⟩
      cases same
      exact ⟨ready,at_,(late ready).mpr after⟩

theorem Reaches.settled (reaches : case.Reaches last) : case.Settled := by
  obtain ⟨made,since,path⟩ := reaches
  have faithful := path.faithful
  have same := path.same
  have course : Course (case.visits.map Visit.gate) := by
    obtain ⟨terms,stage,_⟩ := made
    refine path.course ?_
    intro call start
    cases start
    exact ⟨_,stage⟩
  have issued : ∀ visit ∈ case.visits, visit.issues = if visit.gate = some .ready then [case.call.issue] else [] := by
    intro visit member
    have issue : visit.call.issue = case.call.issue := by rw [same visit member]; rfl
    rw [(faithful visit member).issued,issue]
  refine ⟨course,issued,issues_once case.visits issued course,since,?_,?_,⟨path.inner_once,?_⟩,?_,
    rounds_missed case.visits faithful⟩
  · intro first rest visits
    rw [visits] at path
    obtain ⟨begins,later⟩ := path.head
    exact ⟨refused_first made begins,later.booked fun call left => Call.next_booked left⟩
  · intro visit member outcome gate early
    exact (faithful visit member).stopped gate early
  · intro outcome member
    obtain ⟨visit,among,answered⟩ := List.mem_filterMap.mp member
    have plan : visit.call.plan = case.call.plan := by rw [same visit among]
    unfold Visit.inner Call.inner at answered
    split at answered
    · rw [← plan,Option.some.inj answered]
    · cases answered
  · intro visit member failure failed
    have tuning : visit.call.tuning = case.call.tuning := by rw [same visit member]
    rw [← tuning]
    exact (faithful visit member).failed failed

theorem issues_count (cases : List (Case α)) (settled : ∀ case ∈ cases, case.Settled) :
    (cases.flatMap Case.issues).length = cases.countP fun case => case.Completed := by
  induction cases with
  | nil => rfl
  | cons case rest ih =>
    obtain ⟨first,others⟩ := List.forall_mem_cons.mp settled
    rw [List.flatMap_cons,List.length_append,first.once,ih others,List.countP_cons,Nat.add_comm]
    by_cases completed : case.Completed <;> simp [completed]

end Case

namespace Session
variable {s after : Session α}

-- What is issued is what the calls issue, one for each whose wait completed. Calls may be dropped and replaced at will;
-- each is settled poll by poll.
theorem calls_settled (idle : s.handles = []) (actions : List (Action α)) :
    let docket := Docket.empty.along s actions
    let after := (s.run actions).2
    (s.issues actions).Perm (docket.cases.flatMap Case.issues) ∧
    after.issued = s.issued + docket.cases.countP (fun case => case.Completed) ∧
    (∀ id call, after.calling id = some call → ∃ case, docket.present.find id = some case ∧
      Visit.Path (some case.call) case.visits (some call)) ∧
    ∀ case ∈ docket.cases, case.Settled := by
  intro docket after
  obtain ⟨minds,perm⟩ := Docket.along_keeps (Docket.empty_minds idle) actions
  have settled : ∀ case ∈ docket.cases, case.Settled := by
    intro case member
    obtain ⟨left,reaches⟩ := minds.reaches case member
    exact reaches.settled
  have issues : (s.issues actions).Perm (docket.cases.flatMap Case.issues) := perm.symm
  refine ⟨issues,?_,?_,settled⟩
  · rw [s.run_issued actions,issues.length_eq,Case.issues_count docket.cases settled]
  · intro id call calling
    obtain ⟨case,found,_,reaches⟩ := minds.calling id call calling
    exact ⟨case,found,reaches.path⟩

theorem calls_settled_five_calls :
    let hasty : Service := ⟨.fresh 0,⟨50,0,some 100⟩⟩
    let patient : Service := ⟨.fresh 1,⟨50,0,none⟩⟩
    let opened : Session Unit := ⟨0,⟨1,100,10,none,⟨10,1,1,0⟩⟩,.of .default,[hasty,patient],[],2,0⟩
    let streams : Plan Unit := ⟨none,0,.ok []⟩
    let actions : List (Action Unit) :=
      [.call 0 0 ⟨none,0,.error .elapsed⟩ false,.call 1 0 streams false,.call 2 1 streams false,
        .call 3 1 streams false,.drop 2,.advance Nanos.perSecond,.poll 3,.call 4 0 streams true,
        .advance 200,.poll 4]
    let docket := Docket.empty.along opened actions
    docket.cases.map (fun case => case.visits.map Visit.gate) =
      [[some (.failed .timedOut)],[some .pending,some .ready],[some (.failed .timedOut)],[some .ready],
        [some .pending]] ∧
    (opened.run actions).2.issued = 0 + docket.cases.countP (fun case => case.Completed) ∧
    (opened.run actions).2.issued = 2 ∧ ∀ case ∈ docket.cases, case.Settled := by
  intro hasty patient opened streams actions docket
  have idle : opened.handles = [] := rfl
  obtain ⟨_,issued,_,settled⟩ := calls_settled idle actions
  exact ⟨by decide +kernel,issued,by decide +kernel,settled⟩

end Session
end LoadPacing
