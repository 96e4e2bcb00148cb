import LoadPacing.Proofs.Relay.Items
import LoadPacing.Proofs.Session.Frame

-- Whoever reads a stream gets what the backend produces, at the polls at which it is produced.
namespace LoadPacing

-- One poll, or polls until the stream pauses or ends.
inductive Read where
  | one
  | through
  deriving DecidableEq

def Action.reads (id : Nat) : Action α → Option Read
  | .next other => if other = id then some .one else none
  | .collect other => if other = id then some .through else none
  | _ => none

theorem Action.reads_none {id : Nat} (action : Action α) (different : action.handle ≠ some id) :
    action.reads id = none := by
  cases action with
  | next other | collect other => exact if_neg fun same => different (congrArg some same)
  | _ => rfl

-- The handle is neither dropped nor used for something else.
def Action.Spares (id : Nat) : Action α → Prop
  | .acquire other _ | .acquireBefore other _ _ | .acquireCancellable other _ _ | .drop other
  | .call other _ _ _ => other ≠ id
  | _ => True

def Answer.delivered : Answer α → List (Next α)
  | .item one => [one]
  | .items several => several
  | _ => []

namespace Script

def answer (script : Script α) : Read → Answer α × Script α
  | .one => (.item script.next.1,script.next.2)
  | .through => (.items script.batch.1,script.batch.2)

def answers (script : Script α) : List Read → List (Answer α) × Script α
  | [] => ([],script)
  | read :: rest =>
    let later := (script.answer read).2.answers rest
    ((script.answer read).1 :: later.1,later.2)

theorem answer_seen (script : Script α) (read : Read) :
    ∃ polls, (script.answer read).1.delivered = script.seen polls ∧ (script.answer read).2 = script.drop polls := by
  cases read with
  | one =>
    refine ⟨1,?_,?_⟩
    · simp only [answer,next_produced]
      rfl
    · simp only [answer,next_produced]
  | through => exact script.batch_seen

theorem answers_seen (script : Script α) (reads : List Read) :
    ∃ polls, (script.answers reads).1.flatMap Answer.delivered = script.seen polls ∧
      (script.answers reads).2 = script.drop polls := by
  induction reads generalizing script with
  | nil => exact ⟨0,rfl,rfl⟩
  | cons read rest ih =>
    obtain ⟨first,items,left⟩ := script.answer_seen read
    obtain ⟨more,later,ended⟩ := ih (script.answer read).2
    refine ⟨first + more,?_,?_⟩
    · rw [seen_add,← items,← left,← later]
      rfl
    · rw [← List.drop_drop,← left,← ended]
      rfl

end Script

namespace Session
variable {s : Session α} {id : Nat} {script : Script α}

def source (s : Session α) (id : Nat) : Option (Script α) :=
  match s.lookup id with
  | some (.relaying relay) => some relay.script
  | some (.bare script) => some script
  | _ => none

def received (id : Nat) (s : Session α) : List (Action α) → List (Answer α)
  | [] => []
  | action :: rest =>
    let later := received id (s.step action).2.1 rest
    if (action.reads id).isSome then (s.step action).1 :: later else later

theorem source_found (found : s.source id = some script) :
    (∃ relay, s.lookup id = some (.relaying relay) ∧ relay.script = script) ∨
      s.lookup id = some (.bare script) := by
  unfold source at found
  split at found
  · rename_i relay here
    exact .inl ⟨relay,here,Option.some.inj found⟩
  · rename_i here
    cases found
    exact .inr here
  · cases found

theorem source_relaying (s : Session α) (id : Nat) (relay : Relay α) :
    (s.put id (.relaying relay)).source id = some relay.script := by
  unfold source
  rw [lookup_put]

theorem source_bare (s : Session α) (id : Nat) (script : Script α) :
    (s.put id (.bare script)).source id = some script := by
  unfold source
  rw [lookup_put]

theorem readItem_source (found : s.source id = some script) :
    (s.readItem id).1 = some script.next.1 ∧ (s.readItem id).2.1.source id = some script.next.2 := by
  unfold readItem
  obtain ⟨relay,here,rfl⟩ | here := source_found found
  · obtain ⟨item,left⟩ := relay.next_forwards
    rw [here,← item,← left]
    have put := s.source_relaying id relay.next.2.1
    dsimp only
    split <;> exact ⟨rfl,put⟩
  · rw [here]
    exact ⟨rfl,s.source_bare id _⟩

theorem readItems_source (found : s.source id = some script) (enough : script.length < fuel) :
    (readItems fuel id s).1 = script.batch.1 ∧ (readItems fuel id s).2.1.source id = some script.batch.2 := by
  induction fuel generalizing s script with
  | zero => omega
  | succ fuel ih =>
    have one := readItem_source found
    unfold readItems
    generalize s.readItem id = ran at one
    obtain ⟨item,after,trace⟩ := ran
    obtain ⟨rfl,left⟩ := one
    cases script with
    | nil => exact ⟨rfl,left⟩
    | cons item rest =>
      cases item with
      | pause | close => exact ⟨rfl,left⟩
      | response | failure =>
        obtain ⟨items,ended⟩ := ih left (Nat.lt_of_succ_lt_succ enough)
        exact ⟨congrArg _ items,ended⟩

theorem scriptLength_source (found : s.source id = some script) : s.scriptLength id = script.length := by
  unfold scriptLength
  obtain ⟨relay,here,rfl⟩ | here := source_found found <;> rw [here]

theorem next_source (found : s.source id = some script) :
    (s.step (.next id)).1 = .item script.next.1 ∧ (s.step (.next id)).2.1.source id = some script.next.2 := by
  have one := readItem_source found
  unfold step
  dsimp only
  generalize s.readItem id = ran at one
  obtain ⟨item,after,trace⟩ := ran
  obtain ⟨rfl,left⟩ := one
  exact ⟨rfl,left⟩

theorem collect_source (found : s.source id = some script) :
    (s.step (.collect id)).1 = .items script.batch.1 ∧
    (s.step (.collect id)).2.1.source id = some script.batch.2 := by
  have all := readItems_source found (Nat.lt_succ_self script.length)
  have nonempty := script.batch_nonempty
  unfold step
  dsimp only
  rw [scriptLength_source found]
  generalize readItems (script.length + 1) id s = ran at all
  obtain ⟨items,after,trace⟩ := ran
  obtain ⟨rfl,left⟩ := all
  split
  · rename_i empty
    exact absurd (congrArg Prod.fst empty) nonempty
  · rename_i same
    cases same
    exact ⟨rfl,left⟩

theorem ask_source (found : s.source id = some script) :
    (s.step (.cancel id)).2.1.source id = some script ∧ (s.step (.poll id)).2.1.source id = some script ∧
    (s.step (.callState id)).2.1.source id = some script ∧ (s.step (.unwrap id)).2.1.source id = some script := by
  unfold step giveCancel pollHandle
  obtain ⟨relay,here,rfl⟩ | here := source_found found
  · simp only [here]
    exact ⟨found,found,found,source_bare s id _⟩
  · simp only [here]
    exact ⟨found,found,found,found⟩

theorem step_source (found : s.source id = some script) {action : Action α} (spared : action.Spares id) :
    match action.reads id with
    | none => (s.step action).2.1.source id = some script
    | some read =>
      (s.step action).1 = (script.answer read).1 ∧
      (s.step action).2.1.source id = some (script.answer read).2 := by
  by_cases own : action.handle = some id
  · obtain ⟨cancelled,polled,stage,unwrapped⟩ := ask_source found
    cases action with
    | next other =>
      cases own
      simpa [Action.reads,Script.answer] using next_source found
    | collect other =>
      cases own
      simpa [Action.reads,Script.answer] using collect_source found
    | cancel | poll | callState | unwrap => cases own; assumption
    | acquire | acquireBefore | acquireCancellable | drop | call =>
      cases own
      exact absurd rfl spared
    | _ => cases own
  · rw [action.reads_none own]
    unfold source at found ⊢
    rwa [step_other s action own]

theorem run_source (found : s.source id = some script) (actions : List (Action α))
    (spared : ∀ action ∈ actions, action.Spares id) :
    s.received id actions = (script.answers (actions.filterMap (Action.reads id))).1 ∧
    (s.run actions).2.source id = some (script.answers (actions.filterMap (Action.reads id))).2 := by
  induction actions generalizing s script with
  | nil => exact ⟨rfl,found⟩
  | cons action rest ih =>
    obtain ⟨first,others⟩ := List.forall_mem_cons.mp spared
    have stepped := step_source found first
    unfold received
    cases reads : action.reads id with
    | none =>
      rw [reads] at stepped
      rw [List.filterMap_cons_none reads]
      exact ih stepped others
    | some read =>
      rw [reads] at stepped
      obtain ⟨answered,left⟩ := stepped
      obtain ⟨later,ended⟩ := ih left others
      rw [List.filterMap_cons_some reads]
      refine ⟨?_,ended⟩
      rw [answered,later]
      rfl

-- The two sessions need to have nothing in common but the script and the reads.
theorem readers_undisturbed {s t : Session α} {here there : Nat} {script : Script α}
    (ours : s.source here = some script) (theirs : t.source there = some script)
    {first second : List (Action α)} (spared : ∀ action ∈ first, action.Spares here)
    (kept : ∀ action ∈ second, action.Spares there)
    (same : first.filterMap (Action.reads here) = second.filterMap (Action.reads there)) :
    s.received here first = t.received there second ∧
    s.received here first = (script.answers (first.filterMap (Action.reads here))).1 ∧
    ∃ polls, (s.received here first).flatMap Answer.delivered = script.seen polls ∧
      (s.run first).2.source here = some (script.drop polls) ∧
      (t.run second).2.source there = some (script.drop polls) := by
  obtain ⟨got,left⟩ := run_source ours first spared
  obtain ⟨gained,rest⟩ := run_source theirs second kept
  rw [← same] at gained rest
  obtain ⟨polls,items,ended⟩ := script.answers_seen (first.filterMap (Action.reads here))
  exact ⟨got.trans gained.symm,got,polls,got ▸ items,ended ▸ left,ended ▸ rest⟩

-- A relay that is new and one that has given up on its call.
theorem readers_undisturbed_odd_loads :
    let odd : Response Unit := ⟨(),some [⟨"a",.nan⟩,⟨"b",.infinite false⟩,⟨"c",0⟩]⟩
    let script : Script Unit := [.pause,.response odd,.failure .elapsed,.response odd,.close]
    let s : Session Unit :=
      ⟨0,⟨1,100,10,none,⟨10,1,1,0⟩⟩,.of .default,[],[(0,.relaying (.new script (.of .default)))],0,0⟩
    let t : Session Unit :=
      ⟨7,⟨2,4,3,some 5,⟨3,2,1,7⟩⟩,.of .default,[],
        [(3,.relaying ⟨script,.errored,⟨50,0,none⟩⟩),(4,.relaying (.new script ⟨50,0,none⟩))],0,0⟩
    let first : List (Action Unit) := [.next 0,.setRate 5,.next 0,.collect 0]
    let second : List (Action Unit) :=
      [.observeDeadline none,.next 3,.next 4,.next 4,.advance 9,.next 3,.acquire 1 false,.collect 3]
    s.received 0 first = t.received 3 second ∧
    s.received 0 first =
      [.item .pending,.item (.response odd),.items [.failure .elapsed,.response odd,.ended]] := by
  intro odd script s t first second
  have spared : ∀ action ∈ first, action.Spares 0 := by simp [first,Action.Spares]
  have kept : ∀ action ∈ second, action.Spares 3 := by simp [second,Action.Spares]
  have ours : s.source 0 = some script := rfl
  have theirs : t.source 3 = some script := rfl
  obtain ⟨same,alone,_⟩ := readers_undisturbed ours theirs spared kept rfl
  exact ⟨same,alone⟩

end Session
end LoadPacing
