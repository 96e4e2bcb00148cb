import LoadPacing.Proofs.JsonText.Lexemes
import Mathlib.Data.Bool.AllAny

-- Lists and objects are read item by item, from each lead to the end of what stands behind it.
namespace LoadPacing.JsonText

variable {β σ : Type} {Item : β → List Char → Prop} {first : Bool} {x : β} {xs : List β}
  {blank lead text rest key chars : List Char}

-- What an item begins with.
def Starts (text : List Char) : Prop := ∃ c later, text = c :: later ∧ c ∉ closers

theorem closer_follows {c : Char} (closes : c ∈ closers) (text : List Char) : Follows closers (c :: text) :=
  fun _ same => Option.some.inj same ▸ closes

theorem blanks_follow (blanks : Blanks blank) (follows : Follows closers rest) : Follows closers (blank ++ rest) := by
  cases blank with
  | nil => exact follows
  | cons c blank =>
    have closes : c ∈ closers := List.mem_append_left [',',']','\x7d'] (blanks c List.mem_cons_self)
    exact closer_follows closes _

theorem Lead.follows (leads : Lead false lead) (text : List Char) : Follows closers (lead ++ text) := by
  obtain ⟨before,after,blanks,_,rfl⟩ := leads
  rw [List.append_assoc]
  exact blanks_follow blanks (closer_follows (by decide) _)

theorem Row.follows (row : Row Item false xs text) (follows : Follows closers rest) : Follows closers (text ++ rest) := by
  generalize going : false = first at row
  cases row with
  | nil => exact follows
  | cons leads item later =>
    subst going
    simp only [List.append_assoc]
    exact leads.follows _

theorem Row.of_map {α : Type} {f : α → β} {xs : List α} (row : Row Item first (xs.map f) text) :
    Row (fun x => Item (f x)) first xs text := by
  induction xs generalizing first text with
  | nil =>
    cases row with
    | nil => exact .nil
  | cons x xs ih =>
    cases row with
    | cons leads item later => exact .cons leads item (ih later)

theorem skipBlank_starts (starts : Starts text) : skipBlank text = text := by
  obtain ⟨c,later,rfl,other⟩ := starts
  refine skipBlank_solid (Bool.eq_false_iff.mpr fun blank => other ?_)
  exact List.mem_append_left [',',']','\x7d'] (isBlank_listed.mp blank)

-- Past a lead only its comma is asked for.
theorem skipBlank_lead (leads : Lead first lead) (starts : Starts text) :
    (first = true ∧ skipBlank (lead ++ text) = text) ∨
      first = false ∧ ∃ after, skipBlank (lead ++ text) = ',' :: (after ++ text) ∧ skipBlank (after ++ text) = text := by
  have solid := skipBlank_starts starts
  cases first with
  | true => exact .inl ⟨rfl,by rw [skipBlank_blanks leads,solid]⟩
  | false =>
    obtain ⟨before,after,blanks,others,rfl⟩ := leads
    refine .inr ⟨rfl,after,?_,by rw [skipBlank_blanks others,solid]⟩
    rw [List.append_assoc,skipBlank_blanks blanks]
    exact skipBlank_solid rfl

section Values
variable {value : List Char}

theorem number_starts (n : Decimal) (rest : List Char) : Starts (n.text ++ rest) := by
  obtain ⟨c,more,text,starts⟩ := n.text_head
  refine ⟨c,more ++ rest,by rw [text,List.cons_append],?_⟩
  rcases starts with rfl | digit
  · decide
  · exact digit_unlisted digit (by decide)

theorem value_head (value_ : IsValue value) : (∃ n : Decimal, value = n.text) ∨ value = wordNull ∨
    ∃ c more, value = c :: more ∧ c ∈ ['t','f','"','[','\x7b'] := by
  cases value_ with
  | null => exact .inr (.inl rfl)
  | number n => exact .inl ⟨n,rfl⟩
  | true_ | false_ | string | list | object => exact .inr (.inr ⟨_,_,rfl,by decide⟩)

theorem value_starts (value_ : IsValue value) (rest : List Char) : Starts (value ++ rest) := by
  rcases value_head value_ with ⟨n,rfl⟩ | rfl | ⟨c,more,rfl,listed⟩
  · exact number_starts n rest
  · exact ⟨'n',_,rfl,by decide⟩
  · have plain : ∀ c ∈ ['t','f','"','[','\x7b'], c ∉ closers := List.all_iff_forall_prop.mp (by decide)
    exact ⟨c,more ++ rest,rfl,plain c listed⟩

end Values

section Lists

theorem element_item (leads : Lead first lead) (starts : Starts text) : element first (lead ++ text) = .ok (some text) := by
  obtain ⟨c,later,rfl,other⟩ := id starts
  simp only [closers,List.mem_cons,not_or] at other
  unfold element
  rcases skipBlank_lead leads starts with ⟨rfl,skipped⟩ | ⟨rfl,after,skipped,again⟩
  · simp [skipped,other]
  · simp [skipped,again,other]

theorem element_closed (first : Bool) (blanks : Blanks blank) (rest : List Char) :
    element first (blank ++ ']' :: rest) = .ok none := by
  unfold element
  rw [skipBlank_blanks blanks,skipBlank_solid rfl]
  rfl

theorem closeList_closed (blanks : Blanks blank) (rest : List Char) : closeList (blank ++ ']' :: rest) = .ok rest := by
  unfold closeList
  rw [skipBlank_blanks blanks,skipBlank_solid rfl]
  rfl

theorem closeList_further (leads : Lead first lead) (starts : Starts text) : closeList (lead ++ text) = .error .malformed := by
  obtain ⟨c,later,rfl,other⟩ := id starts
  simp only [closers,List.mem_cons,not_or] at other
  unfold closeList
  rcases skipBlank_lead leads starts with ⟨_,skipped⟩ | ⟨_,after,skipped,_⟩
  · simp [skipped,other]
  · simp [skipped]

end Lists

section Objects

theorem nextKey_lead (leads : Lead first lead) (text : List Char) : nextKey first (lead ++ '"' :: text) = keyAt ('"' :: text) := by
  have starts : Starts ('"' :: text) := ⟨'"',_,rfl,by decide⟩
  unfold nextKey
  rcases skipBlank_lead leads starts with ⟨rfl,skipped⟩ | ⟨rfl,after,skipped,again⟩
  · rw [skipped]
    rfl
  · rw [skipped]
    simp only [Bool.false_eq_true,if_false]
    rw [again]

theorem nextKey_key (leads : Lead first lead) (spelled : Spelled key chars) (rest : List Char) :
    nextKey first (lead ++ '"' :: key ++ '"' :: rest) = .ok (.key chars rest) := by
  have read := string_spelled spelled rest
  rw [List.append_assoc,List.cons_append,nextKey_lead leads]
  unfold keyAt
  simp only [read]

theorem nextKey_closed (first : Bool) (blanks : Blanks blank) (rest : List Char) :
    nextKey first (blank ++ '\x7d' :: rest) = .ok (.closed rest) := by
  unfold nextKey
  rw [skipBlank_blanks blanks,skipBlank_solid rfl]
  rfl

theorem colon_skip (blanks : Blanks blank) (rest : List Char) : colon (blank ++ ':' :: rest) = .ok rest := by
  unfold colon
  rw [skipBlank_blanks blanks,skipBlank_solid rfl]
  rfl

-- Behind its key a member makes a state of another, whatever comes later in the text.
def Takes (member : σ → List Char → List Char → Read σ) (state : σ) (text : List Char) (next : σ) : Prop :=
  ∃ key chars tail, text = '"' :: key ++ '"' :: tail ∧ Spelled key chars ∧
    ∀ rest, Follows closers rest → member state chars (tail ++ rest) = .ok (next,rest)

variable {member : σ → List Char → List Char → Read σ} {Ready : List β → σ → Prop} {state : σ}

-- A state that is ready for the members to come is, behind each of them, ready for the others.
theorem members_row {fuel : Nat} (row : Row Item first xs text)
    (step : ∀ x later state text, Ready (x :: later) state → Item x text →
      ∃ next, Takes member state text next ∧ Ready later next)
    (ready : Ready xs state) (follows : xs ≠ [] → Follows closers rest) (enough : (text ++ rest).length ≤ fuel) :
    ∃ after left, Ready [] after ∧
      members member (fuel + 1) first state (text ++ rest) =
        members member (left + 1) (first && xs.isEmpty) after rest := by
  induction row generalizing state fuel with
  | @nil first => exact ⟨state,fuel,ready,by rw [List.nil_append,List.isEmpty_nil,Bool.and_true]⟩
  | @cons first lead x text xs others leads item later ih =>
    obtain ⟨next,⟨key,chars,tail,rfl,spelled,takes⟩,going⟩ := step x xs state text ready item
    have behind := later.follows (follows (List.cons_ne_nil x xs))
    simp only [List.length_append,List.length_cons] at enough
    obtain ⟨fuel,rfl⟩ : ∃ less, fuel = less + 1 := ⟨fuel - 1,by omega⟩
    have shorter : (others ++ rest).length ≤ fuel := by
      rw [List.length_append]
      omega
    obtain ⟨after,left,done,same⟩ := ih going (fun _ => follows (List.cons_ne_nil x xs)) shorter
    refine ⟨after,left,done,?_⟩
    have begins := nextKey_key leads spelled (tail ++ (others ++ rest))
    simp only [List.append_assoc,List.cons_append] at begins ⊢
    rw [members,begins]
    dsimp only
    rw [takes _ behind]
    dsimp only
    rw [same,Bool.false_and,List.isEmpty_cons,Bool.and_false]

end Objects
end LoadPacing.JsonText
