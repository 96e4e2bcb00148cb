import LoadPacing.Proofs.JsonText.Durations
import LoadPacing.Proofs.JsonText.Members

-- One reading of a report: an object that holds a location and a percentage, or a list of the two.
namespace LoadPacing.JsonText

variable {conv : Conversion} {value other blank text rest chars : List Char} {values : List (List Char)}
  {members done order : List (List Char × List Char)} {m : List Char × List Char} {x : Binary64} {reading : Reading}
  {state : PartialReading}

-- The characters that a string stands for, and the double that a number is read as.
def TextOf (value chars : List Char) : Prop := ∃ written, Spelled written chars ∧ value = '"' :: written ++ ['"']

def NumberOf (conv : Conversion) (value : List Char) (x : Binary64) : Prop :=
  ∃ n : Decimal, conv.value n.numeral = some x ∧ value = n.text

section Contents

theorem told_string (conv : Conversion) (value_ : IsValue value) :
    told (readString conv) value = .ok chars ↔ TextOf value chars := by
  constructor
  · intro read
    rcases string_else conv value_ with ⟨written,raw,rfl⟩ | wrong
    · rw [(string_made conv raw).1] at read
      exact ⟨written,(spelt_ok raw).mp read,rfl⟩
    · rw [wrong.1] at read
      cases read
  · rintro ⟨written,spelled,rfl⟩
    exact (string_made conv spelled.raw).1.trans ((spelt_ok spelled.raw).mpr spelled)

theorem told_number (conv : Conversion) (value_ : IsValue value) :
    told (readNumber conv) value = .ok x ↔ NumberOf conv value x := by
  constructor
  · intro read
    rcases number_else conv value_ with ⟨n,rfl⟩ | wrong
    · rw [(number_made conv n).1] at read
      refine ⟨n,?_,rfl⟩
      cases found : conv.value n.numeral with
      | none => simp [found,orMalformed] at read
      | some value => simpa [found,orMalformed] using read
    · rw [wrong.1] at read
      cases read
  · rintro ⟨n,found,rfl⟩
    rw [(number_made conv n).1,found]
    rfl

end Contents

section Positions

-- A list gives the two values in order.
def placed (conv : Conversion) : List (List Char) → Except ReadError Reading
  | [] => .error (.mismatch (.tooFew 0 readingName 2))
  | location :: values =>
    match told (readString conv) location with
    | .error error => .error error
    | .ok location =>
      match values with
      | [] => .error (.mismatch (.tooFew 1 readingName 2))
      | percent :: values =>
        match told (readNumber conv) percent with
        | .error error => .error error
        | .ok percent => if values.isEmpty then .ok ⟨String.ofList location,percent⟩ else .error .malformed

theorem positionalReading_row (row : Row (fun value text => value = text) true values text)
    (each : ∀ value ∈ values, IsValue value) (after : Blanks blank) (rest : List Char) :
    positionalReading conv (text ++ (blank ++ ']' :: rest)) = (placed conv values).map fun reading => (reading,rest) := by
  have ends := blanks_follow after (closer_follows (by decide : ']' ∈ closers) rest)
  unfold positionalReading placed
  cases row with
  | nil =>
    rw [List.nil_append,element_closed _ after]
    rfl
  | @cons _ lead location _ values others leads item later =>
    subst item
    obtain ⟨location_,each⟩ := List.forall_mem_cons.mp each
    have read := (readString_alone conv location_).here (later.follows ends)
    rw [List.append_assoc,List.append_assoc,element_item leads (value_starts location_ _)]
    dsimp only
    rw [read]
    cases told (readString conv) location with
    | error error => rfl
    | ok location =>
      dsimp only [Except.map]
      cases later with
      | nil =>
        rw [List.nil_append,element_closed _ after]
      | @cons _ lead percent _ values others leads item later =>
        subst item
        obtain ⟨percent_,each⟩ := List.forall_mem_cons.mp each
        have read := (readNumber_alone conv percent_).here (later.follows ends)
        rw [List.append_assoc,List.append_assoc,element_item leads (value_starts percent_ _)]
        dsimp only
        rw [read]
        cases told (readNumber conv) percent with
        | error error => rfl
        | ok percent =>
          dsimp only [Except.map]
          cases later with
          | nil =>
            rw [List.nil_append,closeList_closed after]
            rfl
          | @cons _ lead further _ values others leads item later =>
            subst item
            have starts := value_starts (each further List.mem_cons_self) (others ++ (blank ++ ']' :: rest))
            rw [List.append_assoc,List.append_assoc,closeList_further leads starts]
            rfl

end Positions

section Members

def PartialReading.take (conv : Conversion) (r : PartialReading) (key value : List Char) :
    Except ReadError PartialReading :=
  if key = "location".toList then
    if r.location.isSome then .error (.mismatch (.repeatedKey "location"))
    else (told (readString conv) value).map fun content => { r with location := some content }
  else if key = "cpu_percent".toList then
    if r.percent.isSome then .error (.mismatch (.repeatedKey "cpu_percent"))
    else (told (readNumber conv) value).map fun content => { r with percent := some content }
  else .ok r

theorem readingMember_behind (conv : Conversion) (r : PartialReading) (key value : List Char) (value_ : IsValue value) :
    Behind (readingMember conv r key) value (r.take conv key value) := by
  unfold readingMember PartialReading.take
  split
  · exact newMember_behind "location" _ _ (readString_alone conv value_)
  · split
    · exact newMember_behind "cpu_percent" _ _ (readNumber_alone conv value_)
    · exact passMember_behind r value_

-- What the members of an object fill in, in whatever order they stand and whatever others there are.
structure Filled (conv : Conversion) (members : List (List Char × List Char)) (r : PartialReading) : Prop where
  spelled : ∀ m ∈ members, ∃ chars, Spelled m.1 chars
  location : Held "location" TextOf members r.location
  percent : Held "cpu_percent" (NumberOf conv) members r.percent

theorem filled_nil (state : PartialReading) : Filled conv [] state ↔ ⟨none,none⟩ = state := by
  constructor
  · rintro ⟨_,location,percent⟩
    rw [← location.absent nofun,← percent.absent nofun]
  · rintro rfl
    exact ⟨nofun,held_none.mpr nofun,held_none.mpr nofun⟩

theorem filled_next (spelled : Spelled m.1 chars) (value_ : IsValue m.2) :
    Filled conv (done ++ [m]) state ↔ ∃ prior, Filled conv done prior ∧ prior.take conv chars m.2 = .ok state := by
  have keys : (∀ n ∈ done ++ [m], ∃ chars, Spelled n.1 chars) ↔ ∀ n ∈ done, ∃ chars, Spelled n.1 chars :=
    spelled_snoc spelled
  unfold PartialReading.take
  split
  · rename_i key
    subst key
    have apart : ¬ Spelled m.1 "cpu_percent".toList := fun same => absurd (spelled.unique same) (by decide)
    simp only [taken_once,told_string conv value_]
    constructor
    · intro filled
      obtain ⟨nothing,content,given,means⟩ := (held_key spelled).mp filled.location
      have fewer : Filled conv done ⟨none,state.percent⟩ :=
        ⟨keys.mp filled.spelled,nothing,(held_other apart).mp filled.percent⟩
      exact ⟨_,fewer,rfl,content,means,by rw [← given]⟩
    · rintro ⟨⟨_,percent⟩,filled,rfl,content,means,rfl⟩
      exact ⟨keys.mpr filled.spelled,(held_key spelled).mpr ⟨filled.location,content,rfl,means⟩,
        (held_other apart).mpr filled.percent⟩
  · rename_i noLocation
    have unlocated : ¬ Spelled m.1 "location".toList := fun same => noLocation (spelled.unique same)
    split
    · rename_i key
      subst key
      simp only [taken_once,told_number conv value_]
      constructor
      · intro filled
        obtain ⟨nothing,content,given,means⟩ := (held_key spelled).mp filled.percent
        have fewer : Filled conv done ⟨state.location,none⟩ :=
          ⟨keys.mp filled.spelled,(held_other unlocated).mp filled.location,nothing⟩
        exact ⟨_,fewer,rfl,content,means,by rw [← given]⟩
      · rintro ⟨⟨location,_⟩,filled,rfl,content,means,rfl⟩
        exact ⟨keys.mpr filled.spelled,(held_other unlocated).mpr filled.location,
          (held_key spelled).mpr ⟨filled.percent,content,rfl,means⟩⟩
    · rename_i noPercent
      have unmeasured : ¬ Spelled m.1 "cpu_percent".toList := fun same => noPercent (spelled.unique same)
      constructor
      · rintro ⟨all,location,percent⟩
        exact ⟨state,⟨keys.mp all,(held_other unlocated).mp location,(held_other unmeasured).mp percent⟩,rfl⟩
      · rintro ⟨_,⟨all,location,percent⟩,same⟩
        obtain rfl := Except.ok.inj same
        exact ⟨keys.mpr all,(held_other unlocated).mpr location,(held_other unmeasured).mpr percent⟩

theorem filled_fold (keys : ∀ m ∈ members, Raw m.1) (each : ∀ m ∈ members, IsValue m.2) :
    members.foldlM (memberStep (readingMember conv)) ⟨none,none⟩ = .ok state ↔ Filled conv members state :=
  fold_holds keys each (readingMember_behind conv) filled_nil (fun _ _ => Filled.spelled) fun _ _ _ _ => filled_next

end Members

section Reading

theorem reading_list (list : Bracketed values value) :
    told (readReading conv) value = placed conv values ∧ Alone (readReading conv) value := by
  obtain ⟨row,blank,written,after,opens⟩ := list.opens
  refine alone_made fun front rest blanks _ => ?_
  unfold readReading
  rw [opens front rest blanks]
  exact positionalReading_row written list.each after rest

theorem reading_object (object : Braced members value) :
    told (readReading conv) value =
        (members.foldlM (memberStep (readingMember conv)) ⟨none,none⟩).bind PartialReading.complete ∧
      Alone (readReading conv) value := by
  refine alone_made fun front rest blanks _ => ?_
  obtain ⟨inside,begins,read⟩ := readMembers_braced object
    (fun m member r key => ⟨_,readingMember_behind conv r key m.2 (object.each m member)⟩) ⟨none,none⟩ rest
  unfold readReading
  rw [skipBlank_value object.isValue blanks,begins]
  simp only [read]
  cases members.foldlM (memberStep (readingMember conv)) ⟨none,none⟩ with
  | error error => rfl
  | ok state =>
    dsimp only [Except.map,Except.bind]
    cases state.complete <;> rfl

theorem readReading_alone (conv : Conversion) (value_ : IsValue value) : Alone (readReading conv) value := by
  have other (c : Char) (more : List Char) (begins : value = c :: more) (closed : c ≠ '[') (bare : c ≠ '\x7b') :
      Alone (readReading conv) value := by
    refine (alone_wrong conv (.record readingName) value_ fun blank rest blanks => ?_).2
    unfold readReading
    rw [skipBlank_value value_ blanks]
    simp [begins,closed,bare]
  rcases value_kinds value_ with ⟨_,_,begins⟩ | ⟨_,list⟩ | ⟨_,object⟩ | ⟨c,more,begins,plain⟩
  · exact other '"' _ begins (by decide) (by decide)
  · exact (reading_list list).2
  · exact (reading_object object).2
  · simp only [List.mem_cons,not_or] at plain
    exact other c more begins plain.2.1 plain.2.2.1

-- The location is asked for first.
theorem reading_whole (object : Braced members value) :
    told (readReading conv) value = .ok reading ↔ Filled conv members ⟨some reading.location.toList,some reading.percent⟩ := by
  rw [(reading_object object).1]
  constructor
  · intro read
    cases fold : members.foldlM (memberStep (readingMember conv)) ⟨none,none⟩ with
    | error error => simp [fold,Except.bind] at read
    | ok state =>
      rw [fold] at read
      have filled := (filled_fold object.keys object.each).mp fold
      obtain ⟨location,percent⟩ := state
      cases location with
      | none => cases read
      | some location =>
        cases percent with
        | none => cases read
        | some percent =>
          obtain rfl := Except.ok.inj read
          simpa using filled
  · intro filled
    rw [(filled_fold object.keys object.each).mpr filled]
    simp [Except.bind,PartialReading.complete]

theorem reading_unlocated (object : Braced members value) {percent : Option Binary64}
    (filled : Filled conv members ⟨none,percent⟩) :
    told (readReading conv) value = .error (.mismatch (.missingKey "location")) := by
  rw [(reading_object object).1,(filled_fold object.keys object.each).mpr filled]
  rfl

theorem reading_unmeasured (object : Braced members value) {location : List Char}
    (filled : Filled conv members ⟨some location,none⟩) :
    told (readReading conv) value = .error (.mismatch (.missingKey "cpu_percent")) := by
  rw [(reading_object object).1,(filled_fold object.keys object.each).mpr filled]
  rfl

theorem reading_lacking (object : Braced members value)
    (lacking : (∀ m ∈ members, ¬ Spelled m.1 "location".toList) ∨ ∀ m ∈ members, ¬ Spelled m.1 "cpu_percent".toList) :
    ∃ error, told (readReading conv) value = .error error := by
  cases read : told (readReading conv) value with
  | error error => exact ⟨error,rfl⟩
  | ok reading =>
    have filled := (reading_whole object).mp read
    rcases lacking with absent | absent
    · cases filled.location.absent absent
    · cases filled.percent.absent absent

end Reading

section Alike

def readingKeys : List String := ["location","cpu_percent"]

-- The same reading with the members of its object in another order and unknown ones among them.
inductive ReadingAlike : List Char → List Char → Prop where
  | same {value : List Char} (value_ : IsValue value) : ReadingAlike value value
  | object {members order : List (List Char × List Char)} {value other : List Char} (old : Braced members value)
      (reworked : Reworked readingKeys members order) (new : Braced order other) : ReadingAlike value other

theorem ReadingAlike.read (alike : ReadingAlike value other) (read : told (readReading conv) value = .ok reading) :
    told (readReading conv) other = .ok reading := by
  cases alike with
  | same => exact read
  | object old reworked new =>
    obtain ⟨keys,location,percent⟩ := (reading_whole old).mp read
    refine (reading_whole new).mpr ⟨reworked.spelled keys,?_,?_⟩
    · exact location.reworked (by decide) reworked
    · exact percent.reworked (by decide) reworked

end Alike

end LoadPacing.JsonText
