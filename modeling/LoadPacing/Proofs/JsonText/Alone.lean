import LoadPacing.JsonText.ReportForm
import LoadPacing.Proofs.JsonText.Passing

-- What is read of a value depends neither on the blanks in front of it nor on what stands behind it.
namespace LoadPacing.JsonText

variable (conv : Conversion) {β σ : Type} {written key value text blank before after rest : List Char}
  {values : List (List Char)} {members : List (List Char × List Char)}

-- What a reader makes of a text that is one value.
def told (read : List Char → Read β) (value : List Char) : Except ReadError β := (read value).map Prod.fst

def Alone (read : List Char → Read β) (value : List Char) : Prop :=
  ∀ blank rest, Blanks blank → Follows closers rest →
    read (blank ++ value ++ rest) = (told read value).map fun content => (content,rest)

theorem follows_nil : Follows closers [] := nofun

theorem Alone.here {read : List Char → Read β} (alone : Alone read value) (follows : Follows closers rest) :
    read (value ++ rest) = (told read value).map fun content => (content,rest) :=
  alone [] rest blanks_nil follows

theorem told_map {read : Except ReadError β} (rest : List Char) :
    (read.map fun content => (content,rest)).map Prod.fst = read := by
  cases read <;> rfl

theorem alone_made {read : List Char → Read β} {made : Except ReadError β}
    (reads : ∀ blank rest, Blanks blank → Follows closers rest →
      read (blank ++ value ++ rest) = made.map fun content => (content,rest)) : told read value = made ∧ Alone read value := by
  have own := reads [] [] blanks_nil follows_nil
  rw [List.nil_append,List.append_nil] at own
  have same : told read value = made := by
    unfold told
    rw [own]
    exact told_map []
  refine ⟨same,?_⟩
  unfold Alone
  rwa [same]

section Strings

theorem completeUnit_goes {high : Option Nat} {v : Nat} {spelling : Spelling}
    (goes : completeUnit high v = some (.inr spelling)) : ∃ unit, spelling = .lowEscape unit := by
  unfold completeUnit at goes
  split at goes
  · split at goes
    · cases goes
      exact ⟨v,rfl⟩
    · split at goes <;> cases goes
  · split at goes <;> cases goes

theorem consRead_told (c : Char) (read : Option (List Char × List Char)) (rest : List Char) :
    consRead c (read.map fun told => (told.1,rest)) = (consRead c read).map fun told => (told.1,rest) := by
  cases read <;> rfl

-- A reader that has seen half of a pair is told apart: what it expects may or may not come.
theorem string_raw (raw : Raw written) (rest : List Char) :
    string .plain (written ++ '"' :: rest) = (string .plain (written ++ ['"'])).map (fun told => (told.1,rest)) ∧
    ∀ unit, string (.lowEscape unit) (written ++ '"' :: rest) =
      (string (.lowEscape unit) (written ++ ['"'])).map fun told => (told.1,rest) := by
  induction raw with
  | nil => exact ⟨rfl,fun _ => rfl⟩
  | plain ordinary later ih =>
    obtain ⟨unquoted,unescaped,visible⟩ := ordinary
    constructor
    · simp [string,unquoted,unescaped,Char.not_lt.mpr visible,ih.1,consRead_told]
    · intro unit
      simp [string,unescaped]
  | escape listed later ih =>
    obtain ⟨simple,long⟩ := simpleEscape_listed _ listed
    dsimp only at simple long
    constructor
    · simp [string,simple,long,ih.1,consRead_told]
    · intro unit
      simp [string,long]
  | @unit code v written hex later ih =>
    have either (high : Option Nat) : string (.unit high 0 0) (code ++ (written ++ '"' :: rest)) =
        (string (.unit high 0 0) (code ++ (written ++ ['"']))).map fun told => (told.1,rest) := by
      rw [string_unit hex,string_unit hex]
      cases completed : completeUnit high v with
      | none => rfl
      | some completion =>
        cases completion with
        | inl c => simp [ih.1,consRead_told]
        | inr spelling =>
          obtain ⟨unit,rfl⟩ := completeUnit_goes completed
          exact ih.2 unit
    constructor
    · simpa [string] using either none
    · intro unit
      simpa [string] using either (some unit)

theorem consRead_some {c : Char} {read : Option (List Char × List Char)} {chars : List Char}
    (got : (consRead c read).map Prod.fst = some chars) : ∃ later, chars = c :: later ∧ read.map Prod.fst = some later := by
  cases read with
  | none => cases got
  | some told => exact ⟨told.1,(Option.some.inj got).symm,rfl⟩

-- Only what is spelled can be read. A high surrogate waits for its low one.
theorem raw_spelled (raw : Raw written) :
    (∀ chars, (string .plain (written ++ ['"'])).map Prod.fst = some chars → Spelled written chars) ∧
    ∀ code v chars, Hex code v → 0xD800 ≤ v ∧ v < 0xDC00 →
      (string (.lowEscape v) (written ++ ['"'])).map Prod.fst = some chars → Spelled ('\\' :: 'u' :: code ++ written) chars := by
  induction raw with
  | nil =>
    constructor
    · intro chars got
      obtain rfl : [] = chars := by simpa [string] using got
      exact .nil
    · intro code v chars _ _ got
      simp [string] at got
  | plain ordinary later ih =>
    obtain ⟨unquoted,unescaped,visible⟩ := id ordinary
    constructor
    · intro chars got
      simp only [List.cons_append,string,unquoted,unescaped,Char.not_lt.mpr visible,if_false] at got
      obtain ⟨others,rfl,more⟩ := consRead_some got
      exact .plain ordinary (ih.1 others more)
    · intro code v chars _ _ got
      simp [string,unescaped] at got
  | escape listed later ih =>
    obtain ⟨simple,long⟩ := simpleEscape_listed _ listed
    dsimp only at simple long
    constructor
    · intro chars got
      have step := got
      simp only [List.cons_append,string,simple,long,if_false,if_true,Char.reduceEq] at step
      obtain ⟨others,rfl,more⟩ := consRead_some step
      exact .escape listed (ih.1 others more)
    · intro code v chars _ _ got
      simp [string,long] at got
  | @unit code w written hex later ih =>
    constructor
    · intro chars got
      simp only [List.cons_append,List.append_assoc,string,Char.reduceEq,if_false,if_true,string_unit hex] at got
      by_cases high : 0xD800 ≤ w ∧ w < 0xDC00
      · simp only [completeUnit,if_pos high] at got
        exact ih.2 code w chars hex high got
      · by_cases low : 0xDC00 ≤ w ∧ w < 0xE000
        · simp [completeUnit,high,low] at got
        · simp only [completeUnit,if_neg high,if_neg low] at got
          obtain ⟨others,rfl,more⟩ := consRead_some got
          exact .unit hex (by omega) (ih.1 others more)
    · intro front v chars first high got
      simp only [List.cons_append,List.append_assoc,string,if_true,string_unit hex] at got
      by_cases low : 0xDC00 ≤ w ∧ w < 0xE000
      · simp only [completeUnit,if_pos low] at got
        obtain ⟨others,rfl,more⟩ := consRead_some got
        simpa only [List.cons_append,List.append_assoc] using Spelled.pair first high hex low (ih.1 others more)
      · simp [completeUnit,low] at got

end Strings

section Found

theorem found_number (n : Decimal) (ends : Follows closers rest) :
    found conv (n.text ++ rest) = conv.found n.numeral := by
  obtain ⟨c,more,text,starts⟩ := n.text_head
  have read := numeral_text n ends
  have other : c ∉ ['n','t','f','"','[','\x7b'] := by
    rcases starts with rfl | digit
    · decide
    · exact digit_unlisted digit (by decide)
  simp only [List.mem_cons,List.not_mem_nil,or_false,not_or] at other
  rw [text] at read ⊢
  simp only [List.cons_append] at read ⊢
  simp [found,other,read]

theorem found_value (value_ : IsValue value) (ends : Follows closers rest) :
    found conv (value ++ rest) = found conv value := by
  cases value_ with
  | null | true_ | false_ | list | object => rfl
  | number n =>
    have own := found_number conv n follows_nil
    rw [List.append_nil] at own
    rw [found_number conv n ends,own]
  | @string written raw =>
    have read := (string_raw raw rest).1
    simp only [List.cons_append,List.append_assoc,List.nil_append,found,read,Option.map_map]
    rfl

theorem wrongType_value (expected : Expected) (value_ : IsValue value) (ends : Follows closers rest) :
    wrongType conv expected (value ++ rest) = wrongType conv expected value := by
  unfold wrongType
  rw [found_value conv value_ ends]

theorem skipBlank_value (value_ : IsValue value) (blanks : Blanks blank) (rest : List Char) :
    skipBlank (blank ++ value ++ rest) = value ++ rest := by
  rw [List.append_assoc,skipBlank_blanks blanks,skipBlank_starts (value_starts value_ rest)]

theorem value_some (value_ : IsValue value) : 0 < value.length := by
  obtain ⟨c,later,begins,_⟩ := value_starts value_ []
  rw [List.append_nil] at begins
  rw [begins]
  exact Nat.succ_pos _

end Found

section Lists
variable {read : List Char → Read β} {first : Bool}

theorem elements_row (row : Row (fun value text => value = text) first values text) (each : ∀ value ∈ values, IsValue value)
    (alone : ∀ value ∈ values, Alone read value) (after : Blanks blank) (rest : List Char) {fuel : Nat}
    (enough : (text ++ (blank ++ ']' :: rest)).length ≤ fuel) :
    elements read (fuel + 1) first (text ++ (blank ++ ']' :: rest)) =
      (values.mapM (told read)).map fun contents => (contents,rest) := by
  induction row generalizing fuel with
  | nil =>
    rw [List.nil_append,elements,element_closed _ after,closeList_closed after]
    rfl
  | @cons first lead value text values others leads item later ih =>
    subst item
    obtain ⟨value_,values_⟩ := List.forall_mem_cons.mp each
    obtain ⟨own,theirs⟩ := List.forall_mem_cons.mp alone
    have starts := value_starts value_ (others ++ (blank ++ ']' :: rest))
    have follows : Follows closers (others ++ (blank ++ ']' :: rest)) :=
      later.follows (blanks_follow after (closer_follows (by decide) rest))
    have read_ := own.here follows
    have some_ := value_some value_
    simp only [List.length_append,List.length_cons] at enough
    obtain ⟨fuel,rfl⟩ : ∃ less, fuel = less + 1 := ⟨fuel - 1,by omega⟩
    have shorter : (others ++ (blank ++ ']' :: rest)).length ≤ fuel := by
      simp only [List.length_append,List.length_cons]
      omega
    have further := ih values_ theirs shorter
    rw [List.append_assoc,List.append_assoc,elements,element_item leads starts,List.mapM_cons]
    dsimp only
    rw [read_]
    cases told read value with
    | error error => rfl
    | ok content =>
      dsimp only [Except.map]
      rw [further]
      cases values.mapM (told read) <;> rfl

theorem Bracketed.opens (list : Bracketed values text) :
    ∃ row blank, Row (fun value text => value = text) true values row ∧ Blanks blank ∧ ∀ front rest, Blanks front →
      skipBlank (front ++ text ++ rest) = '[' :: (row ++ (blank ++ ']' :: rest)) := by
  obtain ⟨_,row,blank,written,after,rfl⟩ := list
  refine ⟨row,blank,written,after,fun front rest blanks => ?_⟩
  simp only [List.append_assoc,List.cons_append,List.nil_append]
  rw [skipBlank_blanks blanks,skipBlank_solid rfl]

theorem told_list (list : Bracketed values text) (alone : ∀ value ∈ values, Alone read value) :
    told (readList conv read) text = values.mapM (told read) ∧ Alone (readList conv read) text := by
  obtain ⟨row,blank,written,after,opens⟩ := list.opens
  refine alone_made fun front rest blanks _ => ?_
  unfold readList
  rw [opens front rest blanks]
  exact elements_row written list.each alone after rest le_rfl

end Lists

section Readers
variable {read : List Char → Read β}

theorem Bracketed.begins (list : Bracketed values text) : ∃ more, text = '[' :: more := by
  obtain ⟨_,row,blank,_,_,rfl⟩ := list
  exact ⟨_,rfl⟩

theorem Braced.begins (object : Braced members text) : ∃ more, text = '\x7b' :: more := by
  obtain ⟨_,_,row,blank,_,_,rfl⟩ := object
  exact ⟨_,rfl⟩

theorem value_kinds (value_ : IsValue value) :
    (∃ written, Raw written ∧ value = '"' :: written ++ ['"']) ∨ (∃ values, Bracketed values value) ∨
      (∃ members, Braced members value) ∨ ∃ c more, value = c :: more ∧ c ∉ ['"','[','\x7b'] := by
  cases value_ with
  | string raw => exact .inl ⟨_,raw,rfl⟩
  | list each row after => exact .inr (.inl ⟨_,each,_,_,row,after,rfl⟩)
  | object keys each row after => exact .inr (.inr (.inl ⟨_,keys,each,_,_,row,after,rfl⟩))
  | null | true_ | false_ => exact .inr (.inr (.inr ⟨_,_,rfl,by decide⟩))
  | number n =>
    obtain ⟨c,more,text,starts⟩ := n.text_head
    refine .inr (.inr (.inr ⟨c,more,text,?_⟩))
    rcases starts with rfl | digit
    · decide
    · exact digit_unlisted digit (by decide)

theorem alone_wrong (expected : Expected) (value_ : IsValue value)
    (wrong : ∀ blank rest, Blanks blank →
      read (blank ++ value ++ rest) = .error (wrongType conv expected (value ++ rest))) :
    told read value = .error (wrongType conv expected value) ∧ Alone read value :=
  alone_made fun blank rest blanks ends => by
    rw [wrong blank rest blanks,wrongType_value conv expected value_ ends]
    rfl

theorem number_made (n : Decimal) :
    told (readNumber conv) n.text = orMalformed (conv.value n.numeral) ∧ Alone (readNumber conv) n.text :=
  alone_made fun blank rest blanks ends => by
    rw [readNumber_text conv n blanks ends]
    cases conv.value n.numeral <;> rfl

theorem string_made (raw : Raw written) :
    told (readString conv) ('"' :: written ++ ['"']) = orMalformed ((string .plain (written ++ ['"'])).map Prod.fst) ∧
      Alone (readString conv) ('"' :: written ++ ['"']) :=
  alone_made fun blank rest blanks ends => by
    have read := (string_raw raw rest).1
    unfold readString
    rw [skipBlank_value (.string raw) blanks]
    simp only [List.cons_append,List.append_assoc,List.nil_append,read]
    cases string .plain (written ++ ['"']) <;> rfl

theorem number_else (value_ : IsValue value) : (∃ n : Decimal, value = n.text) ∨
    told (readNumber conv) value = .error (wrongType conv .number value) ∧ Alone (readNumber conv) value := by
  rcases value_head value_ with number | other
  · exact .inl number
  · refine .inr (alone_wrong conv .number value_ fun blank rest blanks => ?_)
    have plain : startsNumeral (value ++ rest) = false := by
      rcases other with rfl | ⟨c,more,rfl,listed⟩
      · rfl
      · have plain : ∀ c ∈ ['t','f','"','[','\x7b'], (c = '-' || c.isDigit) = false := List.all_iff_forall_prop.mp (by decide)
        exact plain c listed
    unfold readNumber
    rw [skipBlank_value value_ blanks]
    simp [plain]

theorem string_else (value_ : IsValue value) : (∃ written, Raw written ∧ value = '"' :: written ++ ['"']) ∨
    told (readString conv) value = .error (wrongType conv .string value) ∧ Alone (readString conv) value := by
  have other (c : Char) (more : List Char) (begins : value = c :: more) (unquoted : c ≠ '"') :
      told (readString conv) value = .error (wrongType conv .string value) ∧ Alone (readString conv) value := by
    refine alone_wrong conv .string value_ fun blank rest blanks => ?_
    unfold readString
    rw [skipBlank_value value_ blanks]
    simp [begins,unquoted]
  rcases value_kinds value_ with quoted | ⟨_,list⟩ | ⟨_,object⟩ | ⟨c,more,begins,plain⟩
  · exact .inl quoted
  · obtain ⟨more,begins⟩ := list.begins
    exact .inr (other '[' more begins (by decide))
  · obtain ⟨more,begins⟩ := object.begins
    exact .inr (other '\x7b' more begins (by decide))
  · simp only [List.mem_cons,not_or] at plain
    exact .inr (other c more begins plain.1)

theorem readNumber_alone (value_ : IsValue value) : Alone (readNumber conv) value := by
  rcases number_else conv value_ with ⟨n,rfl⟩ | wrong
  · exact (number_made conv n).2
  · exact wrong.2

theorem readString_alone (value_ : IsValue value) : Alone (readString conv) value := by
  rcases string_else conv value_ with ⟨written,raw,rfl⟩ | wrong
  · exact (string_made conv raw).2
  · exact wrong.2

theorem readList_alone (alone : ∀ value, IsValue value → Alone read value) (value_ : IsValue value) :
    Alone (readList conv read) value := by
  have other (c : Char) (more : List Char) (begins : value = c :: more) (closed : c ≠ '[') :
      Alone (readList conv read) value := by
    refine (alone_wrong conv .sequence value_ fun blank rest blanks => ?_).2
    unfold readList
    rw [skipBlank_value value_ blanks]
    simp [begins,closed]
  rcases value_kinds value_ with ⟨written,raw,begins⟩ | ⟨values,list⟩ | ⟨_,object⟩ | ⟨c,more,begins,plain⟩
  · exact other '"' _ begins (by decide)
  · exact (told_list conv list fun value member => alone value (list.each value member)).2
  · obtain ⟨more,begins⟩ := object.begins
    exact other '\x7b' more begins (by decide)
  · simp only [List.mem_cons,not_or] at plain
    exact other c more begins plain.2.1

end Readers

end LoadPacing.JsonText
