namespace LoadPacing

abbrev Registry (β : Type) := List (Nat × β)

namespace Registry
variable {β : Type} {entries : Registry β} {id other : Nat} {x y : β}

def find (entries : Registry β) (id : Nat) : Option β :=
  (entries.find? fun entry => entry.1 = id).map fun entry => entry.2

def without (entries : Registry β) (id : Nat) : Registry β :=
  entries.filter fun entry => entry.1 ≠ id

def put (entries : Registry β) (id : Nat) (x : β) : Registry β := (id,x) :: entries.without id

@[simp] theorem find_without : (entries.without id).find id = none := by
  simp [find,without]

@[simp] theorem find_without_other (different : other ≠ id) :
    (entries.without id).find other = entries.find other := by
  unfold find without
  rw [List.find?_filter]
  congr 2
  funext entry
  by_cases equal : entry.1 = other <;> simp [equal,different]

@[simp] theorem find_put : (entries.put id x).find id = some x := by
  simp [find,put]

@[simp] theorem find_put_other (different : other ≠ id) :
    (entries.put id x).find other = entries.find other := by
  have skipped : (entries.put id x).find other = (entries.without id).find other := by
    simp [find,put,different.symm]
  rw [skipped,find_without_other different]

@[simp] theorem without_put : (entries.put id x).without id = entries.without id := by
  simp [put,without]

theorem without_absent (absent : entries.find id = none) : entries.without id = entries := by
  refine List.filter_eq_self.mpr ?_
  intro entry member
  have other := List.find?_eq_none.mp (Option.map_eq_none_iff.mp absent) entry member
  simpa using other

def Distinct (entries : Registry β) : Prop := (entries.map Prod.fst).Nodup

theorem distinct_nil : Distinct ([] : Registry β) := List.nodup_nil

theorem distinct_without (distinct : entries.Distinct) : (entries.without id).Distinct :=
  distinct.sublist (List.filter_sublist.map _)

theorem distinct_put (distinct : entries.Distinct) : (entries.put id x).Distinct := by
  refine List.nodup_cons.mpr ⟨?_,distinct_without distinct⟩
  simp [without]

-- Taking out the entry under a number leaves all others, once each.
theorem perm_of_find (distinct : entries.Distinct) (found : entries.find id = some x) :
    entries.Perm ((id,x) :: entries.without id) := by
  induction entries with
  | nil => cases found
  | cons first rest ih =>
    obtain ⟨fresh,below⟩ := List.nodup_cons.mp distinct
    by_cases equal : first.1 = id
    · have same : first = (id,x) := by
        have value : first.2 = x := by simpa [find,equal] using found
        exact Prod.ext equal value
      have absent : find rest id = none := by
        simp only [find,Option.map_eq_none_iff,List.find?_eq_none,decide_eq_true_eq]
        intro entry member taken
        exact fresh (List.mem_map.mpr ⟨entry,member,taken.trans equal.symm⟩)
      rw [show without (first :: rest) id = without rest id by simp [without,equal],
        without_absent absent,same]
    · have later : find rest id = some x := by simpa [find,equal] using found
      rw [show without (first :: rest) id = first :: without rest id by simp [without,equal]]
      exact ((ih below later).cons first).trans (List.Perm.swap _ _ _)

end Registry
end LoadPacing
