import LoadPacing.JsonText.Pass
import LoadPacing.Proofs.JsonText.Rows
import Mathlib.Logic.Relation

-- A value that nobody looks at is passed over to its end, whatever lists and objects are open around it.
namespace LoadPacing.JsonText

variable {written key value text blank lead before rest more : List Char} {values : List (List Char)}
  {members : List (List Char × List Char)} {frames : List Frame} {c : Char}

section Strings

theorem passString_raw (raw : Raw written) (rest : List Char) : passString .plain (written ++ '"' :: rest) = some rest := by
  induction raw with
  | nil => rfl
  | plain ordinary later ih =>
    obtain ⟨unquoted,unescaped,visible⟩ := ordinary
    simp [passString,unquoted,unescaped,visible,ih]
  | escape listed later ih =>
    obtain ⟨simple,long⟩ := simpleEscape_listed _ listed
    dsimp only at simple long
    simp [passString,simple,long,ih]
  | unit hex later ih =>
    cases hex with
    | mk one two three four =>
      have first := hexDigit_listed _ one
      have second := hexDigit_listed _ two
      have third := hexDigit_listed _ three
      have last := hexDigit_listed _ four
      dsimp only at first second third last
      simp [passString,first,second,third,last,ih]

theorem passKey_raw (blanks : Blanks blank) (raw : Raw key) (others : Blanks before) (rest : List Char) :
    passKey (blank ++ '"' :: (key ++ '"' :: (before ++ ':' :: rest))) = some rest := by
  have passed := passString_raw raw (before ++ ':' :: rest)
  unfold passKey
  rw [skipBlank_blanks blanks,skipBlank_solid rfl]
  simp [passed,skipBlank_blanks others,skipBlank_solid,isBlank]

end Strings

section Steps

-- What a passing has come to: the open lists and objects, where it stands in the innermost one, and the text ahead.
structure Pass where
  frames : List Frame
  spot : Spot
  text : List Char

structure Pass.Step (one two : Pass) : Prop where
  shorter : two.text.length < one.text.length
  goes : ∀ fuel, passFrom (fuel + 1) one.frames one.spot one.text = passFrom fuel two.frames two.spot two.text

abbrev Pass.Steps : Pass → Pass → Prop := Relation.ReflTransGen Pass.Step

-- The length of the text is fuel enough to arrive.
theorem Pass.Steps.enough {one : Pass} (steps : one.Steps ⟨[],.ended,rest⟩) {fuel : Nat} (enough : one.text.length ≤ fuel) :
    passFrom (fuel + 1) one.frames one.spot one.text = some rest := by
  induction steps using Relation.ReflTransGen.head_induction_on generalizing fuel with
  | refl => rfl
  | head step later ih =>
    have shorter := step.shorter
    obtain ⟨fuel,rfl⟩ : ∃ less, fuel = less + 1 := ⟨fuel - 1,by omega⟩
    rw [step.goes]
    exact ih (by omega)

attribute [local simp] passFrom

theorem step_scalar (blanks : Blanks blank) (solid : isBlank c = false) (other : c ∉ ['"','[','\x7b'])
    (scalar : passScalar (c :: more) = some rest) (shorter : rest.length < (c :: more).length) :
    (Pass.mk frames .value (blank ++ c :: more)).Step ⟨frames,.ended,rest⟩ := by
  refine ⟨by simp only [List.length_append] at *; omega,fun fuel => ?_⟩
  simp only [List.mem_cons,List.not_mem_nil,or_false,not_or] at other
  simp [skipBlank_blanks blanks,skipBlank_solid solid,other,scalar]

theorem step_string (blanks : Blanks blank) (raw : Raw written) (rest : List Char) :
    (Pass.mk frames .value (blank ++ ('"' :: written ++ ['"']) ++ rest)).Step ⟨frames,.ended,rest⟩ := by
  refine ⟨by simp; omega,fun fuel => ?_⟩
  have passed := passString_raw raw rest
  simp [skipBlank_blanks blanks,skipBlank_solid,isBlank,passed]

theorem step_emptyList (frames : List Frame) (blanks : Blanks blank) (inside : Blanks before) (rest : List Char) :
    (Pass.mk frames .value (blank ++ '[' :: (before ++ ']' :: rest))).Step ⟨frames,.ended,rest⟩ := by
  refine ⟨by simp; omega,fun fuel => ?_⟩
  simp [skipBlank_blanks blanks,skipBlank_blanks inside,skipBlank_solid,isBlank]

theorem step_openList (frames : List Frame) (blanks : Blanks blank) (inside : Blanks before) (starts : Starts text) :
    (Pass.mk frames .value (blank ++ '[' :: (before ++ text))).Step ⟨.list :: frames,.value,text⟩ := by
  obtain ⟨c,later,rfl,other⟩ := id starts
  have open_ : c ≠ ']' := by
    rintro rfl
    exact other (by decide)
  refine ⟨by simp; omega,fun fuel => ?_⟩
  simp [skipBlank_blanks blanks,skipBlank_blanks inside,skipBlank_starts starts,skipBlank_solid,isBlank,open_]

theorem step_furtherValue (frames : List Frame) (blanks : Blanks blank) (text : List Char) :
    (Pass.mk (.list :: frames) .ended (blank ++ ',' :: text)).Step ⟨.list :: frames,.value,text⟩ := by
  refine ⟨by simp; omega,fun fuel => ?_⟩
  simp [skipBlank_blanks blanks,skipBlank_solid,isBlank]

theorem step_closeList (blanks : Blanks blank) (rest : List Char) :
    (Pass.mk (.list :: frames) .ended (blank ++ ']' :: rest)).Step ⟨frames,.ended,rest⟩ := by
  refine ⟨by simp; omega,fun fuel => ?_⟩
  simp [skipBlank_blanks blanks,skipBlank_solid,isBlank]

theorem step_emptyObject (frames : List Frame) (blanks : Blanks blank) (inside : Blanks before) (rest : List Char) :
    (Pass.mk frames .value (blank ++ '\x7b' :: (before ++ '\x7d' :: rest))).Step ⟨frames,.ended,rest⟩ := by
  refine ⟨by simp; omega,fun fuel => ?_⟩
  simp [skipBlank_blanks blanks,skipBlank_blanks inside,skipBlank_solid,isBlank]

theorem step_openObject (frames : List Frame) (blanks : Blanks blank) (inside : Blanks lead) (raw : Raw key) (others : Blanks before)
    (rest : List Char) :
    (Pass.mk frames .value (blank ++ '\x7b' :: (lead ++ '"' :: (key ++ '"' :: (before ++ ':' :: rest))))).Step
      ⟨.object :: frames,.value,rest⟩ := by
  have passed := passKey_raw blanks_nil raw others rest
  rw [List.nil_append] at passed
  refine ⟨by simp; omega,fun fuel => ?_⟩
  simp [skipBlank_blanks blanks,skipBlank_blanks inside,skipBlank_solid,isBlank,passed]

theorem step_furtherKey (frames : List Frame) (blanks : Blanks blank) (inside : Blanks lead) (raw : Raw key) (others : Blanks before)
    (rest : List Char) :
    (Pass.mk (.object :: frames) .ended (blank ++ ',' :: (lead ++ '"' :: (key ++ '"' :: (before ++ ':' :: rest))))).Step
      ⟨.object :: frames,.value,rest⟩ := by
  have passed := passKey_raw inside raw others rest
  refine ⟨by simp; omega,fun fuel => ?_⟩
  simp [skipBlank_blanks blanks,skipBlank_solid,isBlank,passed]

theorem step_closeObject (blanks : Blanks blank) (rest : List Char) :
    (Pass.mk (.object :: frames) .ended (blank ++ '\x7d' :: rest)).Step ⟨frames,.ended,rest⟩ := by
  refine ⟨by simp; omega,fun fuel => ?_⟩
  simp [skipBlank_blanks blanks,skipBlank_solid,isBlank]

end Steps

section Values

-- From in front of a value to right behind it, with any lists and objects open around it.
def Passes (value : List Char) : Prop :=
  ∀ frames blank rest, Blanks blank → Follows closers rest →
    (Pass.mk frames .value (blank ++ value ++ rest)).Steps ⟨frames,.ended,rest⟩

theorem passScalar_number (n : Decimal) (ends : Follows closers rest) : passScalar (n.text ++ rest) = some rest := by
  obtain ⟨c,more,text,starts⟩ := n.text_head
  have read := numeral_text n ends
  have other : c ∉ ['n','t','f'] := by
    rcases starts with rfl | digit
    · decide
    · exact digit_unlisted digit (by decide)
  simp only [List.mem_cons,List.not_mem_nil,or_false,not_or] at other
  rw [text] at read ⊢
  simp only [List.cons_append] at read ⊢
  simp [passScalar,other,read]

theorem number_passes (n : Decimal) : Passes n.text := by
  intro frames blank rest blanks ends
  have scalar := passScalar_number n ends
  obtain ⟨c,more,text,starts⟩ := n.text_head
  have plain : isBlank c = false ∧ c ∉ ['"','[','\x7b'] := by
    rcases starts with rfl | digit
    · decide
    · refine ⟨Bool.eq_false_iff.mpr fun blank => ?_,digit_unlisted digit (by decide)⟩
      exact digit_unlisted digit (by decide) (isBlank_listed.mp blank)
  rw [text,List.cons_append] at scalar
  rw [text,List.append_assoc,List.cons_append]
  have shorter : rest.length < (c :: (more ++ rest)).length := by
    rw [List.length_cons,List.length_append]
    omega
  exact .single (step_scalar blanks plain.1 plain.2 scalar shorter)

theorem word_passes {word : List Char} (word_ : word ∈ [wordNull,wordTrue,wordFalse]) : Passes word := by
  intro frames blank rest blanks _
  rw [List.append_assoc]
  simp only [List.mem_cons,List.not_mem_nil,or_false] at word_
  rcases word_ with rfl | rfl | rfl
  · exact .single (step_scalar blanks rfl (by decide) rfl (by simp; omega))
  · exact .single (step_scalar blanks rfl (by decide) rfl (by simp; omega))
  · exact .single (step_scalar blanks rfl (by decide) rfl (by simp; omega))

theorem list_passes (row : Row (fun value text => value = text) false values text) (each : ∀ value ∈ values, Passes value)
    (after : Blanks blank) (rest : List Char) :
    (Pass.mk (.list :: frames) .ended (text ++ (blank ++ ']' :: rest))).Steps ⟨frames,.ended,rest⟩ := by
  generalize going : false = first at row
  induction row with
  | nil => exact .single (step_closeList after rest)
  | @cons first lead value text values others leads item later ih =>
    subst going item
    obtain ⟨before,behind,blanks,more,rfl⟩ := leads
    obtain ⟨passes,remaining⟩ := List.forall_mem_cons.mp each
    have follows : Follows closers (others ++ (blank ++ ']' :: rest)) :=
      later.follows (blanks_follow after (closer_follows (by decide) rest))
    have comma := step_furtherValue frames blanks (behind ++ value ++ (others ++ (blank ++ ']' :: rest)))
    have step := (passes (.list :: frames) behind _ more follows).trans (ih remaining rfl)
    simpa only [List.append_assoc,List.cons_append] using step.head comma

theorem object_passes (row : Row (fun m => Paired m.1 m.2) false members text) (keys : ∀ m ∈ members, Raw m.1)
    (each : ∀ m ∈ members, Passes m.2) (after : Blanks blank) (rest : List Char) :
    (Pass.mk (.object :: frames) .ended (text ++ (blank ++ '\x7d' :: rest))).Steps ⟨frames,.ended,rest⟩ := by
  generalize going : false = first at row
  induction row with
  | nil => exact .single (step_closeObject after rest)
  | @cons first lead m text members others leads item later ih =>
    subst going
    obtain ⟨before,behind,blanks,more,rfl⟩ := leads
    obtain ⟨between,front,spaces,gaps,rfl⟩ := item
    obtain ⟨passes,remaining⟩ := List.forall_mem_cons.mp each
    obtain ⟨raw,others_⟩ := List.forall_mem_cons.mp keys
    have follows : Follows closers (others ++ (blank ++ '\x7d' :: rest)) :=
      later.follows (blanks_follow after (closer_follows (by decide) rest))
    have comma := step_furtherKey frames blanks more raw spaces (front ++ m.2 ++ (others ++ (blank ++ '\x7d' :: rest)))
    have step := (passes (.object :: frames) front _ gaps follows).trans (ih others_ remaining rfl)
    simpa only [List.append_assoc,List.cons_append] using step.head comma

theorem value_passes (value_ : IsValue value) : Passes value := by
  induction value_ with
  | null | true_ | false_ => exact word_passes (by decide)
  | number n => exact number_passes n
  | string raw => exact fun frames blank rest blanks _ => .single (step_string blanks raw rest)
  | @list text blank values each row after ih =>
    intro frames front rest blanks _
    cases row with
    | nil =>
      have empty := step_emptyList frames blanks after rest
      simpa only [List.append_assoc,List.cons_append,List.nil_append] using Relation.ReflTransGen.single empty
    | @cons _ lead value _ values others leads item later =>
      subst item
      obtain ⟨passes,remaining⟩ := List.forall_mem_cons.mp ih
      have follows : Follows closers (others ++ (blank ++ ']' :: rest)) :=
        later.follows (blanks_follow after (closer_follows (by decide) rest))
      have starts := value_starts (each value List.mem_cons_self) (others ++ (blank ++ ']' :: rest))
      have step := (passes (.list :: frames) [] _ blanks_nil follows).trans (list_passes later remaining after rest)
      have opened := step_openList frames blanks leads starts
      simpa only [List.append_assoc,List.cons_append,List.nil_append] using step.head opened
  | @object text blank members keys each row after ih =>
    intro frames front rest blanks _
    cases row with
    | nil =>
      have empty := step_emptyObject frames blanks after rest
      simpa only [List.append_assoc,List.cons_append,List.nil_append] using Relation.ReflTransGen.single empty
    | @cons _ lead m _ members others leads item later =>
      obtain ⟨between,space,spaces,gaps,rfl⟩ := item
      obtain ⟨passes,remaining⟩ := List.forall_mem_cons.mp ih
      obtain ⟨raw,rawOthers⟩ := List.forall_mem_cons.mp keys
      have follows : Follows closers (others ++ (blank ++ '\x7d' :: rest)) :=
        later.follows (blanks_follow after (closer_follows (by decide) rest))
      have step := (passes (.object :: frames) space _ gaps follows).trans (object_passes later rawOthers remaining after rest)
      have opened := step_openObject frames blanks leads raw spaces
        (space ++ m.2 ++ (others ++ (blank ++ '\x7d' :: rest)))
      simpa only [List.append_assoc,List.cons_append,List.nil_append] using step.head opened

theorem pass_value (value_ : IsValue value) (blanks : Blanks blank) (ends : Follows closers rest) :
    pass (blank ++ value ++ rest) = some rest :=
  (value_passes value_ [] blank rest blanks ends).enough le_rfl

end Values
end LoadPacing.JsonText
