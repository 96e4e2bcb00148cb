import LoadPacing.Load
import LoadPacing.Proofs.Binary64.Neighbours

-- The largest usable reading depends on neither the order of the readings nor on the others.
namespace LoadPacing

namespace Binary64
variable {x y z : Binary64}

theorem le_refl_finite (finite : x.IsFinite) : x ≤ x := (value_le finite finite).mpr le_rfl

theorem le_antisymm_positive (one : x.Positive) (two : y.Positive) (most : x ≤ y) (least : y ≤ x) : x = y :=
  eq_of_value one.1 two.1 (positive_value one).ne'
    (le_antisymm ((value_le one.1 two.1).mp most) ((value_le two.1 one.1).mp least))

theorem max_cases (one : x.Positive) (two : y.Positive) : (max x y = x ∨ max x y = y) ∧ x ≤ max x y ∧ y ≤ max x y := by
  have xNumber := finite_ne_nan one.1
  have yNumber := finite_ne_nan two.1
  have larger_eq : max x y = if x < y then y else x := by
    show larger x y = _
    rw [larger,if_neg xNumber,if_neg yNumber]
  rw [larger_eq]
  split
  · rename_i less
    exact ⟨.inr rfl,le_of_lt less,le_refl_finite two.1⟩
  · rename_i least
    exact ⟨.inl rfl,le_refl_finite one.1,le_of_not_lt yNumber xNumber least⟩

end Binary64

namespace Load
variable {samples others before after : List Binary64} {m n x y : Binary64}

structure Largest (samples : List Binary64) (m : Binary64) : Prop where
  member : m ∈ samples
  usable : m.Positive
  most : ∀ x ∈ samples, x.Positive → x ≤ m

theorem Largest.unique (one : Largest samples x) (two : Largest samples y) : x = y :=
  Binary64.le_antisymm_positive one.usable two.usable (two.most x one.member one.usable) (one.most y two.member two.usable)

theorem largest_one (usable : m.Positive) : Largest [m] m := by
  refine ⟨List.mem_singleton_self m,usable,?_⟩
  intro x member _
  rw [List.mem_singleton.mp member]
  exact Binary64.le_refl_finite usable.1

theorem largest_max (largest : Largest samples m) (usable : x.Positive) : Largest (x :: samples) (max m x) := by
  obtain ⟨which,least,other⟩ := Binary64.max_cases largest.usable usable
  refine ⟨?_,?_,?_⟩
  · rcases which with eq | eq <;> rw [eq]
    · exact List.mem_cons_of_mem x largest.member
    · exact List.mem_cons_self
  · rcases which with eq | eq <;> rw [eq]
    · exact largest.usable
    · exact usable
  · intro y member positive
    rcases List.mem_cons.mp member with rfl | earlier
    · exact other
    · exact Binary64.le_trans (largest.most y earlier positive) least

theorem largest_congr (same : ∀ x : Binary64, x.Positive → (x ∈ samples ↔ x ∈ others)) :
    Largest samples m ↔ Largest others m := by
  constructor
  · intro largest
    refine ⟨(same m largest.usable).mp largest.member,largest.usable,?_⟩
    intro x member positive
    exact largest.most x ((same x positive).mpr member) positive
  · intro largest
    refine ⟨(same m largest.usable).mpr largest.member,largest.usable,?_⟩
    intro x member positive
    exact largest.most x ((same x positive).mp member) positive

theorem fold_largest (rest : List Binary64) (usable : ∀ x ∈ rest, x.Positive) (largest : Largest samples m) :
    Largest (rest ++ samples) (rest.foldl max m) := by
  induction rest generalizing samples m with
  | nil => exact largest
  | cons x rest ih =>
    obtain ⟨first,later⟩ := List.forall_mem_cons.mp usable
    have next := ih later (largest_max largest first)
    refine (largest_congr ?_).mp next
    intro y _
    simp [or_left_comm]

theorem busiest_largest : busiest samples = some m ↔ Largest samples m := by
  have kept : ∀ x : Binary64, x.Positive → (x ∈ samples.filter (fun percent => percent.Positive) ↔ x ∈ samples) := by
    intro x positive
    simp [positive]
  have usable : ∀ x ∈ samples.filter (fun percent => percent.Positive), x.Positive := by simp
  rw [← largest_congr kept]
  unfold busiest
  cases readings : samples.filter (fun percent => percent.Positive) with
  | nil =>
    refine ⟨nofun,?_⟩
    intro largest
    exact absurd largest.member List.not_mem_nil
  | cons first rest =>
    rw [readings] at usable
    obtain ⟨one,others⟩ := List.forall_mem_cons.mp usable
    have found : Largest (first :: rest) (rest.foldl max first) := by
      refine (largest_congr ?_).mp (fold_largest rest others (largest_one one))
      intro x _
      simp [or_comm]
    dsimp only
    rw [Option.some.injEq]
    constructor
    · rintro rfl
      exact found
    · intro largest
      exact found.unique largest

theorem busiest_none : busiest samples = none ↔ ∀ x ∈ samples, ¬ x.Positive := by
  unfold busiest
  cases readings : samples.filter (fun percent => percent.Positive) with
  | nil => simpa [List.filter_eq_nil_iff] using readings
  | cons first rest =>
    have member : first ∈ samples.filter (fun percent => percent.Positive) := by simp [readings]
    obtain ⟨among,usable⟩ := List.mem_filter.mp member
    refine ⟨nofun,?_⟩
    intro unusable
    exact absurd (of_decide_eq_true usable) (unusable first among)

theorem busiest_congr (same : ∀ m, Largest others m ↔ Largest samples m) : busiest others = busiest samples := by
  apply Option.ext
  intro m
  rw [busiest_largest,busiest_largest]
  exact same m

theorem busiest_exists (usable : x ∈ samples) (positive : x.Positive) : ∃ m, Largest samples m := by
  cases found : busiest samples with
  | none => exact absurd positive (busiest_none.mp found x usable)
  | some m => exact ⟨m,busiest_largest.mp found⟩

inductive Restated (samples : List Binary64) : List Binary64 → Prop where
  | reordered {others : List Binary64} (same : others.Perm samples) : Restated samples others
  | usable : Restated samples (samples.filter fun percent => percent.Positive)
  | alone {m : Binary64} (largest : Largest samples m) : Restated samples [m]

theorem Restated.busiest_eq (restated : Restated samples others) : busiest others = busiest samples := by
  cases restated with
  | reordered same => exact busiest_congr fun m => largest_congr fun x _ => same.mem_iff
  | usable => exact busiest_congr fun m => largest_congr fun x positive => by simp [positive]
  | alone largest => rw [busiest_largest.mpr largest,busiest_largest.mpr (largest_one largest.usable)]

theorem largest_raised (one : Largest (before ++ x :: after) m) (two : Largest (before ++ y :: after) n)
    (usable : x.Positive) (finite : y.IsFinite) (raised : x ≤ y) : m ≤ n := by
  have grown : y.Positive := ⟨finite,Binary64.lt_of_lt_of_le usable.2 raised⟩
  by_cases own : m = x
  · subst own
    exact Binary64.le_trans raised (two.most y (by simp) grown)
  · have kept : m ∈ before ++ y :: after := by
      have member := one.member
      simp only [List.mem_append,List.mem_cons,own,false_or] at member ⊢
      exact member.imp_right .inr
    exact two.most m kept one.usable

-- The pass that the law makes over the readings finds the same location as the report of the load.
theorem leading_busiest (samples : List Binary64) : samples.foldl leading none = busiest samples := by
  have onward : ∀ (rest : List Binary64) (top : Binary64),
      rest.foldl leading (some top) = some ((rest.filter fun percent => percent.Positive).foldl max top) := by
    intro rest
    induction rest with
    | nil => exact fun _ => rfl
    | cons x rest ih =>
      intro top
      by_cases positive : x.Positive
      · simp [leading,positive,ih]
      · simp [leading,positive,ih]
  induction samples with
  | nil => rfl
  | cons x rest ih =>
    by_cases positive : x.Positive
    · simp [leading,busiest,positive,onward]
    · have skipped : busiest (x :: rest) = busiest rest := by simp [busiest,positive]
      rw [skipped,← ih,List.foldl_cons,leading,if_neg positive]

theorem nextRate_busiest (samples : List Binary64) (target rate : Binary64) :
    nextRate samples target rate =
      match busiest samples with
      | none => rate
      | some observed => rate * (target / observed) := by
  cases found : busiest samples <;> simp only [nextRate,leading_busiest,found]

theorem nextRate_largest (largest : Largest samples m) (target rate : Binary64) :
    nextRate samples target rate = rate * (target / m) := by
  rw [nextRate_busiest,busiest_largest.mpr largest]

end Load
end LoadPacing
