import LoadPacing.Settings

-- Comparisons read off the places on the extended line. A NaN compares with nothing.
namespace LoadPacing.Binary64

theorem le_iff_place (x y : Binary64) :
    x ≤ y ↔ ∃ a b, x.place = some a ∧ y.place = some b ∧ a ≤ b := by
  show AtMost x y ↔ _
  unfold AtMost
  cases x.place <;> cases y.place <;> simp

theorem lt_iff_place (x y : Binary64) :
    x < y ↔ ∃ a b, x.place = some a ∧ y.place = some b ∧ a < b := by
  show Less x y ↔ _
  unfold Less
  cases x.place <;> cases y.place <;> simp

theorem lt_of_lt_of_le {x y z : Binary64} (less : x < y) (most : y ≤ z) : x < z := by
  obtain ⟨a,b,hx,hy,ab⟩ := (lt_iff_place x y).mp less
  obtain ⟨b',c,hy',hz,bc⟩ := (le_iff_place y z).mp most
  rw [hy] at hy'
  cases hy'
  exact (lt_iff_place x z).mpr ⟨a,c,hx,hz,by omega⟩

theorem lt_of_le_of_lt {x y z : Binary64} (most : x ≤ y) (less : y < z) : x < z := by
  obtain ⟨a,b,hx,hy,ab⟩ := (le_iff_place x y).mp most
  obtain ⟨b',c,hy',hz,bc⟩ := (lt_iff_place y z).mp less
  rw [hy] at hy'
  cases hy'
  exact (lt_iff_place x z).mpr ⟨a,c,hx,hz,by omega⟩

theorem rounded_none (negative : Bool) (den : Nat) : rounded negative 0 den = zero negative := by
  have none : nearest 0 den = 0 := by simp [nearest,roundQuotient]
  show _ = finite negative 0 _
  unfold rounded
  rw [dif_pos (by rw [none]; exact limit_pos)]
  congr

theorem zero_form : (0 : Binary64) = zero false := by
  show rounded false (0 * perOne) 1 = _
  rw [Nat.zero_mul,rounded_none]

theorem zero_finite : (0 : Binary64).IsFinite := by
  rw [zero_form]
  trivial

theorem place_finite {x : Binary64} (finite : x.IsFinite) :
    ∃ a, x.place = some a ∧ -(limit : Int) < a ∧ a < limit := by
  cases x with
  | nan => cases finite
  | infinite negative => cases finite
  | finite negative units onGrid =>
    have below := onGrid.2
    refine ⟨_,rfl,?_⟩
    split <;> omega

theorem finite_ne_nan {x : Binary64} (finite : x.IsFinite) : x ≠ .nan := by
  rintro rfl
  exact finite

theorem le_of_not_lt {x y : Binary64} (xNumber : x ≠ .nan) (yNumber : y ≠ .nan) (less : ¬ y < x) : x ≤ y := by
  have placed : ∀ {z : Binary64}, z ≠ .nan → ∃ a, z.place = some a := by
    intro z number
    cases z with
    | nan => exact absurd rfl number
    | infinite negative => exact ⟨_,rfl⟩
    | finite negative units onGrid => exact ⟨_,rfl⟩
  obtain ⟨a,hx⟩ := placed xNumber
  obtain ⟨b,hy⟩ := placed yNumber
  refine (le_iff_place x y).mpr ⟨a,b,hx,hy,?_⟩
  apply Int.not_lt.mp
  intro above
  exact less ((lt_iff_place y x).mpr ⟨b,a,hy,hx,above⟩)

theorem le_of_lt {x y : Binary64} (less : x < y) : x ≤ y := by
  obtain ⟨a,b,hx,hy,ab⟩ := (lt_iff_place x y).mp less
  exact (le_iff_place x y).mpr ⟨a,b,hx,hy,Int.le_of_lt ab⟩

theorem not_le_of_lt {x y : Binary64} (less : x < y) : ¬ y ≤ x := by
  intro most
  obtain ⟨a,b,hx,hy,ab⟩ := (lt_iff_place x y).mp less
  obtain ⟨b',a',hy',hx',ba⟩ := (le_iff_place y x).mp most
  rw [hx] at hx'
  rw [hy] at hy'
  cases hx'
  cases hy'
  omega

theorem le_number {x : Binary64} (number : x ≠ .nan) : x ≤ x :=
  le_of_not_lt number number fun less => not_le_of_lt less (le_of_lt less)

theorem le_of_not_le {x y : Binary64} (xNumber : x ≠ .nan) (yNumber : y ≠ .nan) (more : ¬ y ≤ x) : x ≤ y :=
  le_of_not_lt xNumber yNumber fun less => more (le_of_lt less)

theorem number_of_le {x y : Binary64} (most : x ≤ y) : x ≠ .nan ∧ y ≠ .nan := by
  obtain ⟨_,_,one,two,_⟩ := (le_iff_place x y).mp most
  constructor
  · rintro rfl
    cases one
  · rintro rfl
    cases two

theorem finite_of_place {x : Binary64} (place : x.place = some a)
    (above : -(limit : Int) < a) (below : a < limit) : x.IsFinite := by
  cases x with
  | nan => cases place
  | infinite negative => cases negative <;> (simp [Binary64.place] at place; omega)
  | finite negative units onGrid => trivial

theorem finite_of_between {low x high : Binary64} (lowFinite : low.IsFinite) (highFinite : high.IsFinite)
    (above : low ≤ x) (below : x ≤ high) : x.IsFinite := by
  obtain ⟨a,b,hlow,hx,ab⟩ := (le_iff_place low x).mp above
  obtain ⟨b',c,hx',hhigh,bc⟩ := (le_iff_place x high).mp below
  obtain ⟨a',hlow',least,_⟩ := place_finite lowFinite
  obtain ⟨c',hhigh',_,most⟩ := place_finite highFinite
  rw [hx] at hx'
  rw [hlow] at hlow'
  rw [hhigh] at hhigh'
  cases hx'
  cases hlow'
  cases hhigh'
  exact finite_of_place hx (by omega) (by omega)

theorem positive_of_within {lower upper rate : Binary64} (low : lower.Positive) (high : upper.Positive)
    (within : Settings.Within lower upper rate) : rate.Positive :=
  ⟨finite_of_between low.1 high.1 within.1 within.2,lt_of_lt_of_le low.2 within.1⟩

end LoadPacing.Binary64
