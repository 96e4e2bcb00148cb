import LoadPacing.Proofs.Session.Chronicle
import LoadPacing.Proofs.Session.OnSpot

-- The chronicle of a run agrees with the session on where every wait stands, and accounts for its permits.
namespace LoadPacing

namespace Chronicle
variable {c : Chronicle} {s after : Session α} {id : Nat}

structure Faithful (c : Chronicle) (s : Session α) : Prop where
  distinct : c.present.Distinct
  due : ∀ life ∈ c.lives, life.Due
  stands : ∀ id, Option.Rel (fun life standing => life.fate.Stands standing) (c.present.find id) (s.standing id)

structure Accounts (c : Chronicle) (b : Bucket) (ops : List Bucket.Op) (passes atOnce : Nat)
    (after : Chronicle) : Prop where
  taken : after.total Life.taken + atOnce = c.total Life.taken + b.taken ops
  returned : after.total Life.returned = c.total Life.returned + Bucket.givenBack ops
  completed : after.total Life.completions + atOnce = c.total Life.completions + passes

theorem Accounts.append {middle last : Chronicle} (first : c.Accounts b x m i middle)
    (second : middle.Accounts (b.run x) y n j last) : c.Accounts b (x ++ y) (m + n) (i + j) last := by
  obtain ⟨taken,returned,completed⟩ := first
  obtain ⟨taken',returned',completed'⟩ := second
  refine ⟨?_,?_,?_⟩
  · rw [Bucket.taken_append]; omega
  · rw [Bucket.givenBack_append]; omega
  · omega

structure Keeps (c : Chronicle) (b : Bucket) (ops : List Bucket.Op) (passes atOnce : Nat)
    (told : Chronicle) (after : Session α) : Prop where
  faithful : told.Faithful after
  accounts : c.Accounts b ops passes atOnce told

theorem Keeps.append {middle last : Chronicle} {between : Session α} (first : c.Keeps b x m i middle between)
    (second : middle.Keeps (b.run x) y n j last after) : c.Keeps b (x ++ y) (m + n) (i + j) last after :=
  ⟨second.faithful,first.accounts.append second.accounts⟩

theorem keeps_still (faithful : c.Faithful s) : c.Keeps b [] 0 0 c s := ⟨faithful,rfl,rfl,rfl⟩

theorem due_next {life : Life} (due : life.Due) (becomes : life.fate.Becomes fate b ops passes) :
    (life.next fate b ops).Due := by
  have parts := Prod.ext_iff.mp due
  refine Prod.ext ?_ ?_
  · exact (congrArg (· + b.taken ops) parts.1).trans becomes.taken.symm
  · exact (congrArg (· + Bucket.givenBack ops) parts.2).trans becomes.returned.symm

variable {life : Life} {b : Bucket} {ops : List Bucket.Op}

theorem accounts_exchange {after : Chronicle} (distinct : c.present.Distinct)
    (found : c.present.find id = some life) (becomes : life.fate.Becomes fate b ops passes)
    (exchanged : ∀ weight, after.total weight =
      weight (life.next fate b ops) + (Chronicle.mk (c.present.without id) c.ended).total weight) :
    c.Accounts b ops passes 0 after := by
  have before := fun weight => total_found weight distinct found
  refine ⟨?_,?_,?_⟩
  · have more : (life.next fate b ops).taken = life.taken + b.taken ops := rfl
    rw [exchanged,before,more]
    omega
  · have more : (life.next fate b ops).returned = life.returned + Bucket.givenBack ops := rfl
    rw [exchanged,before,more]
    omega
  · have more : (life.next fate b ops).completions = life.completions + passes := becomes.completed
    rw [exchanged,before,more]
    omega

theorem poll_keeps {polled : Session.Result α (Answer α)} (faithful : c.Faithful s)
    (found : c.present.find id = some life) (tells : Session.Tells life.fate s id polled) :
    c.Keeps s.regulator.bucket polled.2.2.ops polled.2.2.passed 0
      (c.poll id s.regulator.bucket polled.2.2.ops polled.2.2.issues polled.1) polled.2.1 := by
  obtain ⟨standing,here,stands⟩ := tells.stands
  rw [poll_found found]
  refine ⟨⟨?_,?_,?_⟩,?_⟩
  · exact Registry.distinct_put faithful.distinct
  · intro other member
    rcases mem_put member with rfl | rest
    · exact due_next (faithful.due life (mem_found found)) tells.becomes
    · exact faithful.due other (mem_without rest)
  · intro other
    by_cases equal : other = id
    · rw [equal,Registry.find_put,here]
      exact .some stands
    · rw [Registry.find_put_other equal,tells.others other equal]
      exact faithful.stands other
  · exact accounts_exchange faithful.distinct found tells.becomes (c.total_put id _)

theorem drop_keeps {handle : Handle α} (faithful : c.Faithful s) (found : c.present.find id = some life)
    (here : s.lookup id = some handle) :
    c.Keeps s.regulator.bucket (Session.abandon handle) 0 0 (c.drop id s.regulator.bucket (Session.abandon handle))
      ((s.forget id).operate (Session.abandon handle)) := by
  have stands := faithful.stands id
  rw [found,Session.standing,here] at stands
  cases stands
  rename_i stands
  have becomes := Fate.dropped_becomes (b := s.regulator.bucket) stands
  rw [← Session.abandon_standing] at becomes
  rw [drop_found found]
  refine ⟨⟨?_,?_,?_⟩,?_⟩
  · exact Registry.distinct_without faithful.distinct
  · intro other member
    rcases List.mem_append.mp member with now | before
    · exact faithful.due other (mem_without (List.mem_append_left _ now))
    · rcases List.mem_cons.mp before with rfl | old
      · exact due_next (faithful.due life (mem_found found)) becomes
      · exact faithful.due other (List.mem_append_right _ old)
  · intro other
    by_cases equal : other = id
    · rw [equal,Registry.find_without]
      have gone : ((s.forget id).operate (Session.abandon handle)).standing id = none :=
        congrArg (Option.map Handle.standing) Registry.find_without
      rw [gone]
      exact .none
    · rw [Registry.find_without_other equal]
      have kept : ((s.forget id).operate (Session.abandon handle)).standing other = s.standing other :=
        congrArg (Option.map Handle.standing) (Registry.find_without_other equal)
      rw [kept]
      exact faithful.stands other
  · exact accounts_exchange faithful.distinct found becomes fun weight => total_ended _ _ _ weight

theorem absent_of_faithful (faithful : c.Faithful s) (free : s.lookup id = none) : c.present.find id = none := by
  have stands := faithful.stands id
  rw [Session.standing,free] at stands
  cases found : c.present.find id with
  | none => rfl
  | some life => rw [found] at stands; cases stands

theorem present_of_faithful {handle : Handle α} (faithful : c.Faithful s) (here : s.lookup id = some handle) :
    ∃ life, c.present.find id = some life ∧ life.fate.Stands handle.standing := by
  have stands := faithful.stands id
  rw [Session.standing,here] at stands
  cases found : c.present.find id with
  | none => rw [found] at stands; cases stands
  | some life =>
    rw [found] at stands
    cases stands
    rename_i stands
    exact ⟨life,rfl,stands⟩

theorem release_keeps (faithful : c.Faithful s) (id : Nat) :
    c.Keeps s.regulator.bucket (s.release id).2.2.ops (s.release id).2.2.passed 0
      (c.drop id s.regulator.bucket (s.release id).2.2.ops) (s.release id).2.1 := by
  unfold Session.release
  cases here : s.lookup id with
  | none =>
    rw [drop_absent (absent_of_faithful faithful here)]
    exact keeps_still faithful
  | some handle =>
    obtain ⟨life,found,_⟩ := present_of_faithful faithful here
    exact drop_keeps faithful found here

theorem start_keeps {handle : Handle α} (faithful : c.Faithful s) (free : s.lookup id = none)
    (unpolled : handle.standing = .unpolled) : c.Keeps s.regulator.bucket [] 0 0 (c.start id) (s.put id handle) := by
  have absent := absent_of_faithful faithful free
  have total : ∀ weight, (c.start id).total weight = weight ⟨.unpolled,0,0⟩ + c.total weight := by
    intro weight
    rw [start,total_put,Registry.without_absent absent]
  refine ⟨⟨?_,?_,?_⟩,?_,?_,?_⟩
  · exact Registry.distinct_put faithful.distinct
  · intro other member
    rcases mem_put member with rfl | rest
    · rfl
    · exact faithful.due other (mem_without rest)
  · intro other
    by_cases equal : other = id
    · rw [equal,start,Registry.find_put,Session.standing_put,unpolled]
      exact .some .unpolled
    · rw [start,Registry.find_put_other equal,Session.standing_put_other s handle equal]
      exact faithful.stands other
  · rw [total]; exact Nat.zero_add _
  · rw [total]; exact Nat.zero_add _
  · rw [total]; exact Nat.zero_add _

theorem pollHandle_keeps (faithful : c.Faithful s) (id : Nat) :
    c.Keeps s.regulator.bucket (s.pollHandle id).2.2.ops (s.pollHandle id).2.2.passed 0
      (c.poll id s.regulator.bucket (s.pollHandle id).2.2.ops (s.pollHandle id).2.2.issues
        (s.pollHandle id).1) (s.pollHandle id).2.1 := by
  cases here : s.lookup id with
  | none =>
    have absent := absent_of_faithful faithful here
    unfold Session.pollHandle poll
    rw [here,absent]
    exact keeps_still faithful
  | some handle =>
    obtain ⟨life,found,stands⟩ := present_of_faithful faithful here
    exact poll_keeps faithful found (Session.pollHandle_tells here stands)

theorem apart_keeps (faithful : c.Faithful s) (apart : Session.Apart s trace after) :
    c.Keeps s.regulator.bucket trace.ops trace.passed trace.passed c after := by
  refine ⟨⟨faithful.distinct,faithful.due,?_⟩,?_,?_,rfl⟩
  · intro id
    rw [apart.standing]
    exact faithful.stands id
  · rw [apart.taken]
  · rw [apart.returned]; rfl

theorem replace_keeps {handle : Handle α} (faithful : c.Faithful s) (id : Nat)
    (unpolled : handle.standing = .unpolled) :
    c.Keeps s.regulator.bucket (s.release id).2.2.ops (s.release id).2.2.passed 0
      ((c.drop id s.regulator.bucket (s.release id).2.2.ops).start id) ((s.release id).2.1.put id handle) := by
  obtain ⟨moves,free⟩ := s.release_moves id
  have first := release_keeps faithful id
  have second := start_keeps first.faithful free unpolled
  rw [(Session.moves_keep moves).bucket] at second
  have both := first.append second
  rwa [List.append_nil] at both

theorem launch_keeps {handle : Handle α} (faithful : c.Faithful s) (id : Nat)
    (unpolled : handle.standing = .unpolled) :
    let released := (s.release id).2.2.ops
    let started := (c.drop id s.regulator.bucket released).start id
    let ran := s.launch id handle false
    c.Keeps s.regulator.bucket ran.2.2.ops ran.2.2.passed 0
      (started.poll id (s.regulator.bucket.run released) (ran.2.2.ops.drop released.length)
        ran.2.2.issues ran.1) ran.2.1 := by
  intro released started ran
  have first : c.Keeps s.regulator.bucket released (s.release id).2.2.passed 0 started ((s.release id).2.1.put id handle) :=
    replace_keeps faithful id unpolled
  have bucket : ((s.release id).2.1.put id handle).regulator.bucket = s.regulator.bucket.run released :=
    (Session.moves_keep (s.release_moves id).1).bucket
  have second := pollHandle_keeps first.faithful id
  have ops : ran.2.2.ops = released ++ (((s.release id).2.1.put id handle).pollHandle id).2.2.ops := rfl
  have issues : ran.2.2.issues = (((s.release id).2.1.put id handle).pollHandle id).2.2.issues := by
    show (s.release id).2.2.issues ++ _ = _
    rw [Session.release_issues]
    rfl
  rw [bucket] at second
  rw [ops,List.drop_left,issues]
  exact first.append second

end Chronicle

namespace Session
variable {c : Chronicle} {s : Session α} {id : Nat}

theorem follow_keeps (faithful : c.Faithful s) (action : Action α) :
    c.Keeps s.regulator.bucket (s.step action).2.2.ops (s.step action).2.2.passed (s.atOnceOf action) (c.follow s action)
      (s.step action).2.1 := by
  have stepped := s.step_stepped action
  rw [atOnceOf_turn]
  unfold Chronicle.follow
  generalize s.step action = ran at stepped ⊢
  cases stepped with
  | retuned rate => exact Chronicle.apart_keeps faithful ⟨fun _ => rfl,rfl,rfl,rfl⟩
  | aside inside turn moves later =>
    rw [turn]
    obtain ⟨same,accounts⟩ := Chronicle.apart_keeps faithful (asides_apart moves)
    exact ⟨⟨same.distinct,same.due,same.stands⟩,accounts⟩
  | polled id => exact Chronicle.pollHandle_keeps faithful id
  | dropped id => exact Chronicle.release_keeps faithful id
  | @launched unpolled _ id handle services instances inside turn fresh =>
    rw [turn]
    dsimp only
    rw [← furnished_release s services instances id]
    have furnished : c.Faithful { s with services, instances } :=
      ⟨faithful.distinct,faithful.due,faithful.stands⟩
    cases unpolled with
    | false => exact Chronicle.launch_keeps furnished id fresh
    | true => exact Chronicle.replace_keeps furnished id fresh

theorem along_keeps (faithful : c.Faithful s) (actions : List (Action α)) :
    c.Keeps s.regulator.bucket (s.ops actions) (s.passes actions) (s.atOnce actions) (c.along s actions) (s.run actions).2 := by
  induction actions generalizing c s with
  | nil => exact Chronicle.keeps_still faithful
  | cons action rest ih =>
    have first := follow_keeps faithful action
    have later := ih first.faithful
    rw [(s.step_keeps action).bucket] at later
    exact first.append later

def pending (s : Session α) : Nat :=
  s.handles.countP fun entry => match entry.2.standing with
    | .pending _ => true
    | .unpolled | .past => false

theorem held_length (s : Session α) : s.held.length = s.pending := by
  unfold held pending
  induction s.handles with
  | nil => rfl
  | cons entry rest ih =>
    rw [List.flatMap_cons,List.length_append,ih,List.countP_cons]
    cases entry.2.standing with
    | unpolled => simp
    | past => simp
    | pending ready => simp [Nat.add_comm]

-- Every permit taken was given back, let something through or is held by a pending handle; only lives and attempts on
-- the spot take or give back, and the bucket has seen all of it.
theorem permits_kept (fresh : s.Fresh) (actions : List (Action α)) :
    let bucket := s.regulator.bucket
    let ops := s.ops actions
    let told := Chronicle.empty.along s actions
    let after := (s.run actions).2
    bucket.taken ops =
      Bucket.givenBack ops + (told.total Life.completions + s.atOnce actions) + after.pending ∧
    told.Faithful after ∧ bucket.Orderly [] ops ∧
    bucket.taken ops = told.total Life.taken + s.atOnce actions ∧
    Bucket.givenBack ops = told.total Life.returned ∧ after.regulator.bucket = bucket.run ops := by
  intro bucket ops told after
  have begins : Chronicle.empty.Faithful s := by
    refine ⟨Registry.distinct_nil,nofun,?_⟩
    intro id
    have free : s.standing id = none := by simp [standing,lookup,fresh.1,Registry.find]
    rw [free]
    exact .none
  obtain ⟨faithful,accounts⟩ := along_keeps begins actions
  have taken : told.total Life.taken + s.atOnce actions = 0 + bucket.taken ops := accounts.taken
  have returned : told.total Life.returned = 0 + Bucket.givenBack ops := accounts.returned
  have completed : told.total Life.completions + s.atOnce actions = 0 + s.passes actions :=
    accounts.completed
  obtain ⟨orderly,through,some,books⟩ := (s.run_keeps actions).books _ _ (fresh_books fresh)
  have balance : bucket.taken ops + 0 = Bucket.givenBack ops + (bucket.ledger [] ops).length :=
    bucket.ledger_length ops orderly
  have out : (bucket.ledger [] ops).length = after.pending + s.passes actions := by
    rw [books.out.length_eq,List.append_nil,List.length_append,held_length,some]
  refine ⟨?_,faithful,orderly,?_,?_,(s.run_keeps actions).bucket⟩
  · omega
  · omega
  · omega

-- The wait of handle 1 is replaced while it is pending, and its second life is dropped past its instant.
theorem permits_kept_of_six_lives :
    let opened : Session Unit := ⟨0,⟨1,1,1,none,⟨1,1,1,0⟩⟩,.of .default,[],[],0,0⟩
    let actions : List (Action Unit) :=
      [.acquire 0 false,.acquire 1 false,.acquire 2 true,.acquireBefore 3 0 false,
        .acquireCancellable 4 false false,.cancel 4,.poll 4,.acquire 1 false,.tryAcquire,
        .advance (10 * Nanos.perSecond),.tryAcquire,.drop 1,.drop 0]
    (Chronicle.empty.along opened actions).lives =
      [⟨.givenUp,1,1⟩,⟨.timedOut,0,0⟩,⟨.unpolled,0,0⟩,⟨.completed,1,0⟩,⟨.givenUp,1,1⟩,⟨.givenUp,1,1⟩] ∧
    opened.regulator.bucket.taken (opened.ops actions) = Bucket.givenBack (opened.ops actions) +
      ((Chronicle.empty.along opened actions).total Life.completions + opened.atOnce actions) +
      (opened.run actions).2.pending :=
  ⟨by decide +kernel,
    (permits_kept ⟨rfl,1,1,Bucket.new_usable (by decide +kernel) (by decide +kernel)⟩ _).1⟩

end Session
end LoadPacing
