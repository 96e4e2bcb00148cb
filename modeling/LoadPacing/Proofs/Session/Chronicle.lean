import LoadPacing.Proofs.Session.Fates

-- The lives of the waits of a session, each with its fate and what was done for it at the bucket.
namespace LoadPacing

structure Life where
  fate : Fate
  taken : Nat
  returned : Nat
  deriving DecidableEq

namespace Life

def completions (life : Life) : Nat := life.fate.completions

def Due (life : Life) : Prop := (life.taken,life.returned) = life.fate.due

def next (life : Life) (fate : Fate) (b : Bucket) (ops : List Bucket.Op) : Life :=
  ⟨fate,life.taken + b.taken ops,life.returned + Bucket.givenBack ops⟩

end Life

structure Chronicle where
  present : Registry Life
  ended : List Life

namespace Chronicle

def empty : Chronicle := ⟨[],[]⟩

def lives (c : Chronicle) : List Life := c.present.map Prod.snd ++ c.ended

def total (c : Chronicle) (weight : Life → Nat) : Nat := (c.lives.map weight).sum

def start (c : Chronicle) (id : Nat) : Chronicle := { c with present := c.present.put id ⟨.unpolled,0,0⟩ }

def poll (c : Chronicle) (id : Nat) (b : Bucket) (ops : List Bucket.Op) (issues : List (Issue α))
    (answer : Answer α) : Chronicle :=
  match c.present.find id with
  | none => c
  | some life => { c with present := c.present.put id (life.next (life.fate.heard issues answer) b ops) }

def drop (c : Chronicle) (id : Nat) (b : Bucket) (ops : List Bucket.Op) : Chronicle :=
  match c.present.find id with
  | none => c
  | some life => ⟨c.present.without id,life.next life.fate.dropped b ops :: c.ended⟩

-- What a start does at the bucket is first the drop of the handle in use, if there is one,
-- and then the first poll, unless it is left for later.
def follow (c : Chronicle) (s : Session α) (action : Action α) : Chronicle :=
  let ran := s.step action
  match s.turn action with
  | .start id unpolled =>
    let released := (s.release id).2.2.ops
    let started := (c.drop id s.regulator.bucket released).start id
    if unpolled then started
    else started.poll id (s.regulator.bucket.run released) (ran.2.2.ops.drop released.length)
      ran.2.2.issues ran.1
  | .poll id => c.poll id s.regulator.bucket ran.2.2.ops ran.2.2.issues ran.1
  | .drop id => c.drop id s.regulator.bucket ran.2.2.ops
  | .aside => c

def along (c : Chronicle) (s : Session α) : List (Action α) → Chronicle
  | [] => c
  | action :: rest => (c.follow s action).along (s.step action).2.1 rest

variable {c : Chronicle} {id : Nat} {life after : Life}

theorem total_eq (c : Chronicle) (weight : Life → Nat) :
    c.total weight = (c.present.map fun entry => weight entry.2).sum + (c.ended.map weight).sum := by
  simp [total,lives,Function.comp_def]

theorem total_found (weight : Life → Nat) (distinct : c.present.Distinct) (found : c.present.find id = some life) :
    c.total weight = weight life + (Chronicle.mk (c.present.without id) c.ended).total weight := by
  have perm := (Registry.perm_of_find distinct found).map fun entry => weight entry.2
  rw [total_eq,total_eq,perm.sum_nat]
  simp [Nat.add_assoc]

theorem total_put (c : Chronicle) (id : Nat) (life : Life) (weight : Life → Nat) :
    (Chronicle.mk (c.present.put id life) c.ended).total weight =
      weight life + (Chronicle.mk (c.present.without id) c.ended).total weight := rfl

theorem total_ended (present : Registry Life) (ended : List Life) (life : Life) (weight : Life → Nat) :
    (Chronicle.mk present (life :: ended)).total weight = weight life + (Chronicle.mk present ended).total weight := by
  simp [total_eq,Nat.add_left_comm]

theorem mem_found (found : c.present.find id = some life) : life ∈ c.lives := by
  obtain ⟨entry,first,rfl⟩ := Option.map_eq_some_iff.mp found
  exact List.mem_append_left _ (List.mem_map.mpr ⟨entry,List.mem_of_find?_eq_some first,rfl⟩)

theorem mem_put {ended : List Life} (member : life ∈ (Chronicle.mk (c.present.put id after) ended).lives) :
    life = after ∨ life ∈ (Chronicle.mk (c.present.without id) ended).lives := by
  rcases List.mem_append.mp member with now | before
  · rcases List.mem_cons.mp now with new | old
    · exact .inl new
    · exact .inr (List.mem_append_left _ old)
  · exact .inr (List.mem_append_right _ before)

theorem mem_without (member : life ∈ (Chronicle.mk (c.present.without id) c.ended).lives) : life ∈ c.lives := by
  rcases List.mem_append.mp member with now | before
  · exact List.mem_append_left _ ((List.filter_sublist.map _).subset now)
  · exact List.mem_append_right _ before

variable {b : Bucket} {ops : List Bucket.Op} {issues : List (Issue α)} {answer : Answer α}

theorem poll_found (found : c.present.find id = some life) :
    c.poll id b ops issues answer =
      ⟨c.present.put id (life.next (life.fate.heard issues answer) b ops),c.ended⟩ := by
  unfold poll
  rw [found]

theorem drop_found (found : c.present.find id = some life) :
    c.drop id b ops = ⟨c.present.without id,life.next life.fate.dropped b ops :: c.ended⟩ := by
  unfold drop
  rw [found]

theorem drop_absent (absent : c.present.find id = none) : c.drop id b ops = c := by
  unfold drop
  rw [absent]

end Chronicle
end LoadPacing
