import LoadPacing.Proofs.Session.CallPolls
import LoadPacing.Proofs.Session.Fates

-- The calls of a run, each with the polls that were made of it, until its handle is dropped or replaced.
namespace LoadPacing

-- A poll of a call: the session and the call as it found them, and what its step came to.
structure Visit (α : Type) where
  id : Nat
  session : Session α
  call : Call α
  ran : Session.Result α (Answer α)

namespace Visit

def gate (visit : Visit α) : Option Wait.Outcome := (visit.call.gate visit.session).map Wait.Polled.outcome

-- The instant at which a permit taken at this poll would be ready; none past the end of the clock.
def ready (visit : Visit α) : Option Nanos :=
  (visit.session.regulator.bucket.refill visit.session.now).readyAt visit.session.now

def inner (visit : Visit α) : Option (Except Failure (Script α)) := visit.call.inner visit.session

def issues (visit : Visit α) : List (Issue α) := visit.ran.2.2.issues

def left (visit : Visit α) : Option (Call α) := visit.call.next visit.session

-- The step may have given back a permit before.
def Faithful (visit : Visit α) : Prop :=
  let polled := visit.session.pollCall visit.id visit.call
  ∃ ops, visit.ran = (.progress polled.1,polled.2.1,.ofOps ops ++ polled.2.2)

inductive Path : Option (Call α) → List (Visit α) → Option (Call α) → Prop where
  | nil : Path first [] first
  | cons (faithful : visit.Faithful) (later : Path visit.left rest last) :
      Path (some visit.call) (visit :: rest) last

theorem Path.snoc {visit : Visit α} (path : Path first visits (some visit.call)) (faithful : visit.Faithful) :
    Path first (visits ++ [visit]) visit.left := by
  generalize reached : some visit.call = last at path
  induction path with
  | nil =>
    rw [← reached]
    exact .cons faithful .nil
  | cons before _ ih => exact .cons before (ih reached)

end Visit

structure Case (α : Type) where
  made : Nanos
  call : Call α
  visits : List (Visit α)

namespace Case

def issues (case : Case α) : List (Issue α) := case.visits.flatMap Visit.issues

def add (case : Case α) (visit : Visit α) : Case α := { case with visits := case.visits ++ [visit] }

structure Reaches (case : Case α) (left : Option (Call α)) : Prop where
  made : case.call.Made case.made
  since : ∀ visit ∈ case.visits, case.made ≤ visit.session.now
  path : Visit.Path (some case.call) case.visits left

end Case

structure Docket (α : Type) where
  present : Registry (Case α)
  ended : List (Case α)

namespace Docket

def empty : Docket α := ⟨[],[]⟩

def cases (d : Docket α) : List (Case α) := d.present.map Prod.snd ++ d.ended

def issues (d : Docket α) : List (Issue α) := d.cases.flatMap Case.issues

def drop (d : Docket α) (id : Nat) : Docket α :=
  match d.present.find id with
  | none => d
  | some case => ⟨d.present.without id,case :: d.ended⟩

def start (d : Docket α) (s : Session α) (id : Nat) (now : Nanos) : Docket α :=
  match s.calling id with
  | none => d
  | some call => { d with present := d.present.put id ⟨now,call,[]⟩ }

def poll (d : Docket α) (s : Session α) (id : Nat) (ran : Session.Result α (Answer α)) : Docket α :=
  match s.calling id, d.present.find id with
  | some call, some case => { d with present := d.present.put id (case.add ⟨id,s,call,ran⟩) }
  | _, _ => d

-- A start is told in two parts: the new handle is made, and it is polled unless it is left for later.
def follow (d : Docket α) (s : Session α) (action : Action α) : Docket α :=
  match s.turn action with
  | .start id unpolled =>
    let opened := (s.step action.left).2.1
    let started := (d.drop id).start opened id s.now
    if unpolled then started else started.poll opened id (s.step action)
  | .poll id => d.poll s id (s.step action)
  | .drop id => d.drop id
  | .aside => d

def along (d : Docket α) (s : Session α) : List (Action α) → Docket α
  | [] => d
  | action :: rest => (d.follow s action).along (s.step action).2.1 rest

-- Every call under way has its case, and every case is a path of polls.
structure Minds (d : Docket α) (s : Session α) : Prop where
  distinct : d.present.Distinct
  reaches : ∀ case ∈ d.cases, ∃ left, case.Reaches left
  calling : ∀ id call, s.calling id = some call →
    ∃ case, d.present.find id = some case ∧ case.made ≤ s.now ∧ case.Reaches (some call)

structure Keeps (d : Docket α) (issued : List (Issue α)) (next : Docket α) (after : Session α) : Prop where
  minds : next.Minds after
  issues : next.issues.Perm (d.issues ++ issued)

variable {d next : Docket α} {s after : Session α} {id : Nat} {case : Case α}

theorem keeps_still (minds : d.Minds s) : d.Keeps [] d s := ⟨minds,by simp⟩

theorem Keeps.append {first more : List (Issue α)} {last : Docket α} {final : Session α}
    (one : d.Keeps first next after) (two : next.Keeps more last final) : d.Keeps (first ++ more) last final := by
  refine ⟨two.minds,?_⟩
  rw [← List.append_assoc]
  exact two.issues.trans (one.issues.append_right more)

def beside (d : Docket α) (id : Nat) : List (Case α) := (Docket.mk (d.present.without id) d.ended).cases

theorem cases_found (distinct : d.present.Distinct) (found : d.present.find id = some case) :
    d.cases.Perm (case :: d.beside id) :=
  ((Registry.perm_of_find distinct found).map Prod.snd).append_right d.ended

theorem put_cases (d : Docket α) (id : Nat) (case : Case α) :
    (Docket.mk (d.present.put id case) d.ended).cases = case :: d.beside id := rfl

theorem calling_same (here : after.calling id = s.calling id)
    (others : ∀ other, other ≠ id → after.calling other = s.calling other) (other : Nat) :
    after.calling other = s.calling other := by
  by_cases equal : other = id
  · rw [equal,here]
  · exact others other equal

theorem aside_keeps (minds : d.Minds s) (same : ∀ id, after.calling id = s.calling id) (later : s.now ≤ after.now) :
    d.Keeps [] d after := by
  refine ⟨⟨minds.distinct,minds.reaches,?_⟩,by simp⟩
  intro id call found
  rw [same] at found
  obtain ⟨case,here,made,reaches⟩ := minds.calling id call found
  exact ⟨case,here,Nat.le_trans made later,reaches⟩

theorem drop_keeps (minds : d.Minds s) (gone : after.calling id = none)
    (others : ∀ other, other ≠ id → after.calling other = s.calling other) (now : after.now = s.now) :
    d.Keeps [] (d.drop id) after := by
  unfold drop
  cases found : d.present.find id with
  | none =>
    have idle : s.calling id = none := by
      cases calling : s.calling id with
      | none => rfl
      | some call =>
        obtain ⟨case,here,_⟩ := minds.calling id call calling
        rw [found] at here
        cases here
    exact aside_keeps minds (calling_same (gone.trans idle.symm) others) (Nat.le_of_eq now.symm)
  | some case =>
    have perm := cases_found minds.distinct found
    have moved : (Docket.mk (d.present.without id) (case :: d.ended)).cases.Perm d.cases :=
      List.perm_middle.trans perm.symm
    refine ⟨⟨Registry.distinct_without minds.distinct,?_,?_⟩,?_⟩
    · intro other member
      exact minds.reaches other (moved.mem_iff.mp member)
    · intro other call calling
      by_cases equal : other = id
      · rw [equal,gone] at calling
        cases calling
      · rw [others other equal] at calling
        rw [now,Registry.find_without_other equal]
        exact minds.calling other call calling
    · rw [List.append_nil]
      exact moved.flatMap_right Case.issues

theorem start_keeps (minds : d.Minds s) (absent : d.present.find id = none) (idle : s.calling id = none)
    (others : ∀ other, other ≠ id → after.calling other = s.calling other) (now : after.now = s.now)
    (made : ∀ call, after.calling id = some call → call.Made s.now) : d.Keeps [] (d.start after id s.now) after := by
  unfold start
  cases calling : after.calling id with
  | none => exact aside_keeps minds (calling_same (calling.trans idle.symm) others) (Nat.le_of_eq now.symm)
  | some call =>
    have begins : (Case.mk s.now call []).Reaches (some call) := ⟨made call calling,List.forall_mem_nil _,.nil⟩
    have beside : d.beside id = d.cases := by rw [Docket.beside,Registry.without_absent absent]
    refine ⟨⟨Registry.distinct_put minds.distinct,?_,?_⟩,?_⟩
    · intro case member
      rw [put_cases,beside] at member
      rcases List.mem_cons.mp member with rfl | old
      · exact ⟨_,begins⟩
      · exact minds.reaches case old
    · intro other held under
      by_cases equal : other = id
      · rw [equal,calling] at under
        cases under
        exact ⟨_,by rw [equal,Registry.find_put],Nat.le_of_eq now.symm,begins⟩
      · rw [others other equal] at under
        rw [now,Registry.find_put_other equal]
        exact minds.calling other held under
    · rw [List.append_nil,issues,put_cases,beside]
      exact .refl _

theorem Case.reaches_add {visit : Visit α} (reaches : case.Reaches (some visit.call))
    (since : case.made ≤ visit.session.now) (faithful : visit.Faithful) : (case.add visit).Reaches visit.left := by
  refine ⟨reaches.made,?_,reaches.path.snoc faithful⟩
  intro other member
  rcases List.mem_append.mp member with before | last
  · exact reaches.since other before
  · rw [List.mem_singleton.mp last]
    exact since

theorem visit_keeps {call : Call α} (minds : d.Minds s) (found : s.calling id = some call)
    (ran : Session.Result α (Answer α)) (faithful : (Visit.mk id s call ran).Faithful)
    (left : ran.2.1.calling id = call.next s)
    (others : ∀ other, other ≠ id → ran.2.1.calling other = s.calling other) (now : ran.2.1.now = s.now) :
    d.Keeps ran.2.2.issues (d.poll s id ran) ran.2.1 := by
  obtain ⟨case,here,made,reaches⟩ := minds.calling id call found
  have perm := cases_found minds.distinct here
  have more : (case.add ⟨id,s,call,ran⟩).Reaches (call.next s) := Case.reaches_add reaches made faithful
  unfold poll
  rw [found,here]
  refine ⟨⟨Registry.distinct_put minds.distinct,?_,?_⟩,?_⟩
  · intro other member
    rw [put_cases] at member
    rcases List.mem_cons.mp member with rfl | old
    · exact ⟨_,more⟩
    · exact minds.reaches other (perm.mem_iff.mpr (List.mem_cons_of_mem _ old))
  · intro other held under
    by_cases equal : other = id
    · rw [equal,left] at under
      refine ⟨_,by rw [equal,Registry.find_put],?_,by rw [← under]; exact more⟩
      rw [now]
      exact made
    · rw [others other equal] at under
      rw [now,Registry.find_put_other equal]
      exact minds.calling other held under
  · have one : (case.add ⟨id,s,call,ran⟩).issues = case.issues ++ ran.2.2.issues := by
      simp [Case.issues,Case.add,Visit.issues]
    have before : d.issues.Perm (case.issues ++ (d.beside id).flatMap Case.issues) := perm.flatMap_right _
    rw [issues,put_cases,List.flatMap_cons,one,List.append_assoc]
    refine (List.perm_append_comm.append_left case.issues).trans ?_
    rw [← List.append_assoc]
    exact before.symm.append_right _

theorem polled_keeps (minds : d.Minds s) (id : Nat) (ops : List Bucket.Op) :
    let polled := s.pollHandle id
    d.Keeps polled.2.2.issues (d.poll s id (polled.1,polled.2.1,.ofOps ops ++ polled.2.2)) polled.2.1 := by
  intro polled
  have others : ∀ other, other ≠ id → polled.2.1.calling other = s.calling other := by
    intro other different
    unfold Session.calling
    rw [s.pollHandle_other different]
  have now : polled.2.1.now = s.now := (s.pollHandle_moves id).now_eq
  cases found : s.calling id with
  | none =>
    obtain ⟨gone,issues⟩ := Session.pollHandle_idle found
    unfold poll
    rw [found,issues]
    exact aside_keeps minds (calling_same (gone.trans found.symm) others) (Nat.le_of_eq now.symm)
  | some call =>
    have ran : polled = (.progress (s.pollCall id call).1,(s.pollCall id call).2) := Session.pollHandle_calling found
    have left : polled.2.1.calling id = call.next s := by rw [ran]; exact s.pollCall_calling id call
    refine visit_keeps minds found (polled.1,polled.2.1,.ofOps ops ++ polled.2.2) ⟨ops,?_⟩ left others now
    rw [ran]

theorem released_keeps (minds : d.Minds s) (id : Nat) : d.Keeps [] (d.drop id) (s.release id).2.1 := by
  refine drop_keeps minds (s.release_calling id) ?_ (s.release_moves id).1.now_eq
  intro other different
  unfold Session.calling
  rw [s.release_other different]

theorem launched_keeps (minds : d.Minds s) (id : Nat) {handle : Handle α}
    (made : ∀ call, handle.call? = some call → call.Made s.now) :
    let opened := (s.launch id handle true).2.1
    d.Keeps [] ((d.drop id).start opened id s.now) opened := by
  intro opened
  have first := released_keeps minds id
  have now : (s.release id).2.1.now = s.now := (s.release_moves id).1.now_eq
  have absent : (d.drop id).present.find id = none := by
    unfold drop
    split
    · assumption
    · exact Registry.find_without
  have put : opened = (s.release id).2.1.put id handle := rfl
  have second : (d.drop id).Keeps [] ((d.drop id).start opened id (s.release id).2.1.now) opened := by
    refine start_keeps first.minds absent (s.release_calling id) ?_ rfl ?_
    · intro other different
      unfold Session.calling
      rw [put,Session.lookup_put_other _ _ different]
    · intro call here
      rw [put,Session.calling_put] at here
      rw [now]
      exact made call here
  rw [now] at second
  exact first.append second

theorem follow_keeps (minds : d.Minds s) (action : Action α) :
    d.Keeps (s.step action).2.2.issues (d.follow s action) (s.step action).2.1 := by
  have stepped := s.step_stepped action
  unfold follow
  cases turn : s.turn action with
  | start id unpolled =>
    obtain ⟨services,instances,handle,_,made,ran,left⟩ := Session.start_launched turn
    have furnished : d.Minds { s with services, instances } := ⟨minds.distinct,minds.reaches,minds.calling⟩
    have opened := launched_keeps furnished id made
    rw [ran,left]
    cases unpolled with
    | true =>
      have issues : ({ s with services, instances }.launch id handle true).2.2.issues = [] := Session.release_issues _ id
      rw [issues]
      exact opened
    | false =>
      -- The drop of the old handle shows in the operations of the step alone.
      obtain ⟨ops,released⟩ := Session.release_trace { s with services, instances } id
      have polled := Session.launch_polled { s with services, instances } id handle
      rw [released] at polled
      rw [polled]
      exact opened.append (polled_keeps opened.minds id ops)
  | poll id =>
    generalize s.step action = ran at stepped ⊢
    cases stepped with
    | retuned => cases turn
    | aside _ still => rw [still] at turn; cases turn
    | polled other =>
      cases turn
      have only : Trace.ofOps [] ++ (s.pollHandle id).2.2 = (s.pollHandle id).2.2 := Trace.none_append _
      have polled := polled_keeps minds id []
      dsimp only at polled
      rwa [only] at polled
    | dropped => cases turn
    | launched _ _ _ started => rw [started] at turn; cases turn
  | drop id =>
    generalize s.step action = ran at stepped ⊢
    cases stepped with
    | retuned => cases turn
    | aside _ still => rw [still] at turn; cases turn
    | polled => cases turn
    | dropped other =>
      cases turn
      have released := released_keeps minds id
      rwa [← Session.release_issues s id] at released
    | launched _ _ _ started => rw [started] at turn; cases turn
  | aside =>
    have same := Session.aside_calling turn
    generalize s.step action = ran at stepped same ⊢
    cases stepped with
    | retuned rate => exact aside_keeps minds same (Nat.le_refl _)
    | aside _ _ moves later =>
      have kept := aside_keeps minds same later
      rwa [← (Session.asides_apart moves).issues] at kept
    | polled | dropped => cases turn
    | launched _ _ _ started => rw [started] at turn; cases turn

theorem along_keeps (minds : d.Minds s) (actions : List (Action α)) :
    d.Keeps (s.issues actions) (d.along s actions) (s.run actions).2 := by
  induction actions generalizing d s with
  | nil => exact keeps_still minds
  | cons action rest ih =>
    have first := follow_keeps minds action
    exact first.append (ih first.minds)

theorem empty_minds (idle : s.handles = []) : (empty : Docket α).Minds s := by
  refine ⟨Registry.distinct_nil,List.forall_mem_nil _,?_⟩
  intro id call found
  simp [Session.calling,Session.lookup,idle,Registry.find] at found

end Docket
end LoadPacing
