import LoadPacing.Proofs.Regulator.Rounds

-- Attempts to commit under cooldowns of their own, on clocks that may lie before the last commit.
namespace LoadPacing

structure Attempt where
  candidate : Binary64
  now : Nanos
  cooldown : Nanos
  deriving DecidableEq

def Commit.isCommitted : Commit → Bool
  | .committed _ => true
  | .outOfBounds | .coolingDown _ => false

abbrev Attempts := List (Attempt × Commit)

namespace Attempts

def committed (done : Attempts) : Attempts := done.filter fun entry => entry.2.isCommitted

def commits (done : Attempts) : List Attempt := done.committed.map Prod.fst

-- The instant of the latest commit, where `earlier` is that of the one before all these.
def latest (earlier : Option Nanos) (done : Attempts) : Option Nanos :=
  (done.commits.getLast?.map Attempt.now).or earlier

theorem commits_committed (x : Attempt) (done : Attempts) (is : outcome.isCommitted = true) :
    commits ((x,outcome) :: done) = x :: done.commits := by
  simp [commits,committed,is]

theorem commits_rejected (x : Attempt) (done : Attempts) (isNot : outcome.isCommitted = false) :
    commits ((x,outcome) :: done) = done.commits := by
  simp [commits,committed,isNot]

theorem latest_committed (x : Attempt) (done : Attempts) (is : outcome.isCommitted = true) :
    latest earlier ((x,outcome) :: done) = done.latest (some x.now) := by
  simp only [latest,commits_committed x done is,List.getLast?_cons]
  cases done.commits.getLast? <;> rfl

theorem latest_rejected (x : Attempt) (done : Attempts) (isNot : outcome.isCommitted = false) :
    latest earlier ((x,outcome) :: done) = done.latest earlier := by
  simp only [latest,commits_rejected x done isNot]

end Attempts

namespace Regulator

def attempt (r : Regulator) (x : Attempt) : Commit × Regulator := r.commit x.candidate x.now x.cooldown

def attempts (r : Regulator) : List Attempt → Attempts × Regulator
  | [] => ([],r)
  | x :: rest =>
    let tried := r.attempt x
    let later := tried.2.attempts rest
    ((x,tried.1) :: later.1,later.2)

-- The window since the last commit is over.
def Open (last : Option Nanos) (x : Attempt) : Prop :=
  x.cooldown = 0 ∨ ∀ instant, last = some instant → instant + x.cooldown ≤ x.now

theorem cooling_open (r : Regulator) (x : Attempt) :
    r.cooling x.now x.cooldown = none ↔ Open r.lastCommit x := by
  unfold cooling Open
  cases r.lastCommit with
  | none => simp
  | some last =>
    simp only [Option.some.injEq,forall_eq']
    split
    · rename_i waiting
      refine ⟨nofun,?_⟩
      rintro (zero | past) <;> lia
    · rename_i lapsed
      exact ⟨fun _ => by lia,fun _ => rfl⟩

theorem attempt_cases (r : Regulator) (x : Attempt) :
    ((r.attempt x).1.isCommitted = true ∧ r.Contains x.candidate ∧ Open r.lastCommit x ∧
      (r.attempt x).2 = r.adopt x.candidate x.now) ∨
    ((r.attempt x).1.isCommitted = false ∧ ¬ (r.Contains x.candidate ∧ Open r.lastCommit x) ∧
      (r.attempt x).2 = r) := by
  have window := r.cooling_open x
  unfold attempt
  rcases r.commit_cases x.candidate x.now x.cooldown with
    ⟨outside,eq⟩ | ⟨remaining,_,waiting,eq⟩ | ⟨inside,lapsed,eq⟩
  · rw [eq]; exact .inr ⟨rfl,fun both => outside both.1,rfl⟩
  · rw [waiting] at window
    rw [eq]; exact .inr ⟨rfl,fun both => (nomatch window.mpr both.2),rfl⟩
  · rw [eq]; exact .inl ⟨rfl,inside,window.mp lapsed,rfl⟩

theorem attempt_contains (r : Regulator) (x : Attempt) (rate : Binary64) :
    (r.attempt x).2.Contains rate ↔ r.Contains rate := by
  rcases r.attempt_cases x with ⟨_,_,_,after⟩ | ⟨_,_,after⟩
  · rw [after]; rfl
  · rw [after]

theorem attempt_latest (r : Regulator) (x : Attempt) (done : Attempts) :
    done.latest (r.attempt x).2.lastCommit =
      Attempts.latest r.lastCommit ((x,(r.attempt x).1) :: done) := by
  rcases r.attempt_cases x with ⟨committed,_,_,after⟩ | ⟨rejected,_,after⟩
  · simp [Attempts.latest_committed,committed,after]
  · simp [Attempts.latest_rejected,rejected,after]

theorem attempts_latest (r : Regulator) (xs : List Attempt) :
    (r.attempts xs).2.lastCommit = (r.attempts xs).1.latest r.lastCommit := by
  induction xs generalizing r with
  | nil => rfl
  | cons x rest ih => exact (ih _).trans (r.attempt_latest x _)

theorem attempts_window (r : Regulator) (xs : List Attempt) {before after : Attempts}
    (split : (r.attempts xs).1 = before ++ (x,outcome) :: after) :
    outcome.isCommitted = true ↔ r.Contains x.candidate ∧ Open (before.latest r.lastCommit) x := by
  induction before generalizing r xs with
  | nil =>
    cases xs with
    | nil => cases split
    | cons y rest =>
      obtain ⟨⟨rfl,rfl⟩,_⟩ : (y = x ∧ (r.attempt y).1 = outcome) ∧ _ := by
        simpa [attempts] using split
      rcases r.attempt_cases y with ⟨committed,inside,opened,_⟩ | ⟨rejected,closed,_⟩
      · exact ⟨fun _ => ⟨inside,opened⟩,fun _ => committed⟩
      · rw [rejected]
        exact ⟨nofun,fun both => absurd both closed⟩
  | cons first before ih =>
    cases xs with
    | nil => cases split
    | cons y rest =>
      obtain ⟨rfl,later⟩ : (y,(r.attempt y).1) = first ∧
          ((r.attempt y).2.attempts rest).1 = before ++ (x,outcome) :: after := by
        simpa [attempts] using split
      rw [ih _ _ later,attempt_contains,attempt_latest]

theorem attempts_replayed (r : Regulator) (xs : List Attempt) :
    r.attempts (r.attempts xs).1.commits = ((r.attempts xs).1.committed,(r.attempts xs).2) := by
  induction xs generalizing r with
  | nil => rfl
  | cons x rest ih =>
    have later := ih (r.attempt x).2
    rcases r.attempt_cases x with ⟨committed,_,_,_⟩ | ⟨rejected,_,after⟩
    · simp [attempts,Attempts.commits_committed,Attempts.committed,committed,later]
    · rw [after] at later
      simp [attempts,Attempts.commits_rejected,Attempts.committed,rejected,after,later]

theorem attempt_spaced (r : Regulator) (x : Attempt) (positive : 0 < x.cooldown)
    (committed : (r.attempt x).1.isCommitted = true) (last : r.lastCommit = some instant) :
    instant + x.cooldown ≤ x.now := by
  rcases r.attempt_cases x with ⟨_,_,opened,_⟩ | ⟨rejected,_⟩
  · rcases opened with zero | past
    · exact absurd zero (Nat.ne_of_gt positive)
    · exact past _ last
  · rw [committed] at rejected
    cases rejected

theorem commits_after (r : Regulator) (xs : List Attempt) (positive : ∀ x ∈ xs, 0 < x.cooldown)
    (last : r.lastCommit = some instant) :
    ∀ y ∈ (r.attempts xs).1.commits, instant + y.cooldown ≤ y.now := by
  induction xs generalizing r instant with
  | nil => simp [attempts,Attempts.commits,Attempts.committed]
  | cons x rest ih =>
    have ahead := positive x List.mem_cons_self
    have later := fun y member => positive y (List.mem_cons_of_mem x member)
    rcases r.attempt_cases x with ⟨committed,_,_,after⟩ | ⟨rejected,_,after⟩
    · have spaced := r.attempt_spaced x ahead committed last
      intro y member
      simp only [attempts,Attempts.commits_committed,committed,List.mem_cons] at member
      rcases member with rfl | member
      · exact spaced
      · have next := ih (r.attempt x).2 later (by rw [after,adopt_lastCommit]) y member
        lia
    · simpa [attempts,Attempts.commits_rejected,rejected,after] using ih r later last

theorem commits_pairwise (r : Regulator) (xs : List Attempt) (positive : ∀ x ∈ xs, 0 < x.cooldown) :
    (r.attempts xs).1.commits.Pairwise fun x y => x.now + y.cooldown ≤ y.now := by
  induction xs generalizing r with
  | nil => exact .nil
  | cons x rest ih =>
    have later := fun y member => positive y (List.mem_cons_of_mem x member)
    rcases r.attempt_cases x with ⟨committed,_,_,after⟩ | ⟨rejected,_,after⟩
    · simp only [attempts,Attempts.commits_committed,committed]
      exact .cons (commits_after _ _ later (by rw [after,adopt_lastCommit])) (ih _ later)
    · simpa [attempts,Attempts.commits_rejected,rejected,after] using ih r later

theorem attempts_asked (r : Regulator) (xs : List Attempt) :
    (r.attempts xs).1.map Prod.fst = xs := by
  induction xs generalizing r with
  | nil => rfl
  | cons x rest ih => exact congrArg (x :: ·) (ih _)

theorem commits_asked (r : Regulator) (xs : List Attempt) :
    (r.attempts xs).1.commits.Sublist xs := by
  have some : (r.attempts xs).1.committed.Sublist (r.attempts xs).1 := List.filter_sublist
  simpa only [attempts_asked,Attempts.commits] using some.map Prod.fst

-- Nothing that was turned away moves the window that the latest commit opened.
theorem commits_spaced (r : Regulator) (xs : List Attempt) :
    (∀ before x outcome after, (r.attempts xs).1 = before ++ (x,outcome) :: after →
      (outcome.isCommitted = true ↔
        r.Contains x.candidate ∧ Open (Attempts.latest r.lastCommit before) x)) ∧
    (r.attempts xs).2.lastCommit = (r.attempts xs).1.latest r.lastCommit ∧
    r.attempts (r.attempts xs).1.commits = ((r.attempts xs).1.committed,(r.attempts xs).2) ∧
    ((∀ x ∈ xs, 0 < x.cooldown) →
      (r.lastCommit.toList ++ (r.attempts xs).1.commits.map Attempt.now).Pairwise (· < ·) ∧
      (r.attempts xs).1.commits.Pairwise fun x y =>
        ∀ c, c ≤ x.cooldown → c ≤ y.cooldown → x.now + c ≤ y.now) := by
  refine ⟨fun _ _ _ _ split => r.attempts_window xs split,r.attempts_latest xs,r.attempts_replayed xs,?_⟩
  intro positive
  have ahead : ∀ y ∈ (r.attempts xs).1.commits, 0 < y.cooldown :=
    fun y member => positive y ((r.commits_asked xs).subset member)
  have spaced := r.commits_pairwise xs positive
  refine ⟨List.pairwise_append.mpr ⟨?_,?_,?_⟩,?_⟩
  · cases r.lastCommit <;> simp
  · refine List.pairwise_map.mpr (spaced.imp_of_mem ?_)
    intro x y _ member apart
    have := ahead y member
    lia
  · intro instant last _ member
    obtain ⟨y,made,rfl⟩ := List.mem_map.mp member
    have apart := r.commits_after xs positive (Option.mem_toList.mp last) y made
    have := ahead y made
    lia
  · refine spaced.imp ?_
    intro x y apart c _ within
    lia

-- The second caller's clock lies before the first commit, and the third candidate is too small.
theorem commits_spaced_stale_clock :
    Attempts.commits (attempts ⟨10,10000,100,none,⟨100,1,1,0⟩⟩
      [⟨174,60,60⟩,⟨200,30,60⟩,⟨5,110,10⟩,⟨77,119,60⟩,⟨77,120,60⟩]).1 =
      [⟨174,60,60⟩,⟨77,120,60⟩] ∧
    (Attempts.commits (attempts ⟨10,10000,100,none,⟨100,1,1,0⟩⟩
      [⟨174,60,60⟩,⟨200,30,60⟩,⟨5,110,10⟩,⟨77,119,60⟩,⟨77,120,60⟩]).1).Pairwise fun x y =>
        ∀ c, c ≤ x.cooldown → c ≤ y.cooldown → x.now + c ≤ y.now :=
  ⟨by decide +kernel,((commits_spaced _ _).2.2.2 (by decide +kernel)).2⟩

end Regulator
end LoadPacing
