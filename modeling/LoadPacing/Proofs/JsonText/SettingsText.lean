import LoadPacing.Proofs.JsonText.Given
import Mathlib.Data.Bool.AllAny

-- What settings a text gives: an object or a list of fields, a list that is too long, an object that goes wrong.
namespace LoadPacing.JsonText

variable {conv : Conversion} {members done later : List (Field × Literal)} {values : List (List Char)}
  {fields : List Field} {field : Field} {s : Settings} {first : Bool} {blank text rest value key : List Char}

section Texts

def ObjectText (members : List (Field × Literal)) (text : List Char) : Prop :=
  ∃ before row inside behind, Blanks before ∧ Row Named true members row ∧ Blanks inside ∧ Blanks behind ∧
    text = before ++ '\x7b' :: row ++ inside ++ '\x7d' :: behind

def ListText (values : List (List Char)) (text : List Char) : Prop :=
  ∃ before row inside behind, Blanks before ∧ Row (fun value text => value = text) true values row ∧ Blanks inside ∧
    Blanks behind ∧ text = before ++ '[' :: row ++ inside ++ ']' :: behind

-- An object with one more key behind the members. Whatever comes behind that key is left open.
def FurtherKey (members : List (Field × Literal)) (key text : List Char) : Prop :=
  ∃ before row lead written whatever, Blanks before ∧ Row Named true members row ∧ Lead members.isEmpty lead ∧
    Spelled written key ∧ text = before ++ '\x7b' :: row ++ lead ++ '"' :: written ++ '"' :: whatever

end Texts

section Whole

theorem settingsFrom_ok (read : readSettings conv text = .ok (s,blank)) (blanks : Blanks blank) :
    settingsFrom conv (.ofList text) = .ok s := by
  unfold settingsFrom readText
  rw [String.toList_ofList,read]
  simp only [skipBlank_all blanks,List.isEmpty_nil,if_true]

theorem settingsFrom_error {error : ReadError} (read : readSettings conv text = .error error) :
    settingsFrom conv (.ofList text) = .error error := by
  unfold settingsFrom readText
  rw [String.toList_ofList,read]

end Whole

section Objects

theorem readSettings_object (conv : Conversion) (blanks : Blanks blank) (text : List Char) :
    readSettings conv (blank ++ '\x7b' :: text) =
      match readMembers (settingsMember conv) (.default,[]) text with
      | .error error => .error error
      | .ok (state,rest) => .ok (state.1,rest) := by
  unfold readSettings
  rw [skipBlank_blanks blanks,skipBlank_solid rfl]
  rfl

theorem settings_object (distinct : (members.map Prod.fst).Nodup)
    (accepted : ∀ m ∈ members, ∃ content, m.1.Means conv m.2 content) (written : ObjectText members text) :
    ∃ s, Given conv members s ∧ settingsFrom conv (.ofList text) = .ok s := by
  obtain ⟨before,row,inside,behind,blanks,rows,insides,behinds,rfl⟩ := written
  have follows : Follows closers (inside ++ '\x7d' :: behind) := blanks_follow insides (closer_follows (by decide) behind)
  obtain ⟨state,left,given,_,read⟩ := object_row distinct accepted rows (fun _ => follows)
  rw [JsonText.members,nextKey_closed _ insides] at read
  have whole := readSettings_object conv blanks (row ++ (inside ++ '\x7d' :: behind))
  rw [read] at whole
  refine ⟨state.1,given,settingsFrom_ok ?_ behinds⟩
  simpa only [List.append_assoc,List.cons_append] using whole

theorem ofKey_none (unknown : ∀ field : Field, key ≠ field.key.toList) : Field.ofKey key = none := by
  refine List.find?_eq_none.mpr fun field _ same => ?_
  exact unknown field (of_decide_eq_true same).symm

theorem settings_further (distinct : (members.map Prod.fst).Nodup)
    (accepted : ∀ m ∈ members, ∃ content, m.1.Means conv m.2 content) (written : FurtherKey members key text) :
    ((∀ field : Field, key ≠ field.key.toList) → settingsFrom conv (.ofList text) =
      .error (.mismatch (.unknownKey key (Field.all.map Field.key)))) ∧
    ∀ field ∈ members.map Prod.fst, key = field.key.toList → settingsFrom conv (.ofList text) =
      .error (.mismatch (.repeatedKey field.key)) := by
  obtain ⟨before,row,lead,written,whatever,blanks,rows,leads,spelled,rfl⟩ := written
  have follows (some_ : members ≠ []) : Follows closers (lead ++ '"' :: written ++ '"' :: whatever) := by
    rw [List.isEmpty_eq_false_iff.mpr some_] at leads
    rw [List.append_assoc]
    exact leads.follows _
  obtain ⟨state,left,_,seen,read⟩ := object_row distinct accepted rows follows
  rw [JsonText.members,nextKey_key leads spelled] at read
  have refused : ∀ error, settingsMember conv state key whatever = .error error →
      settingsFrom conv (.ofList (before ++ '\x7b' :: row ++ lead ++ '"' :: written ++ '"' :: whatever)) = .error error := by
    intro error judged
    have whole := readSettings_object conv blanks (row ++ (lead ++ '"' :: written ++ '"' :: whatever))
    dsimp only at read
    rw [read,judged] at whole
    refine settingsFrom_error ?_
    simpa only [List.append_assoc,List.cons_append] using whole
  constructor
  · intro unknown
    refine refused _ ?_
    unfold settingsMember
    rw [ofKey_none unknown]
  · rintro field named rfl
    refine refused _ ?_
    unfold settingsMember
    rw [ofKey_key]
    dsimp only
    rw [if_pos (by rw [seen,List.mem_reverse]; exact named)]

end Objects

section Lists

theorem readSettings_list (conv : Conversion) (blanks : Blanks blank) (text : List Char) :
    readSettings conv (blank ++ '[' :: text) = positional conv Field.all true .default text := by
  unfold readSettings
  rw [skipBlank_blanks blanks,skipBlank_solid rfl]
  rfl

theorem positional_closed (blanks : Blanks blank) (fields : List Field) (first : Bool) (s : Settings) (rest : List Char) :
    positional conv fields first s (blank ++ ']' :: rest) = .ok (s,rest) := by
  have closed := closeList_closed blanks rest
  cases fields with
  | nil => rw [positional,closed]
  | cons field fields => rw [positional,element_closed first blanks,closed]

theorem literal_starts (literal : Literal) (rest : List Char) : Starts (literal.text ++ rest) := by
  cases literal with
  | null => exact ⟨'n',_,rfl,by decide⟩
  | number n => exact number_starts n rest

theorem positional_row (fields : List Field) (given : Given conv done s)
    (row : Row (fun (m : Field × Literal) text => m.2.text = text) first later text)
    (distinct : ((done ++ later).map Prod.fst).Nodup) (accepted : ∀ m ∈ later, ∃ content, m.1.Means conv m.2 content)
    (follows : later ≠ [] → Follows closers rest) :
    ∃ next, Given conv (done ++ later) next ∧ positional conv (later.map Prod.fst ++ fields) first s (text ++ rest) =
      positional conv fields (first && later.isEmpty) next rest := by
  induction row generalizing done s with
  | @nil first => exact ⟨s,by rwa [List.append_nil],by rw [List.isEmpty_nil,Bool.and_true]; rfl⟩
  | @cons first lead m text later others leads item row ih =>
    subst item
    obtain ⟨content,means⟩ := accepted m List.mem_cons_self
    have fresh := fresh_of_distinct distinct
    have behind := row.follows (follows (List.cons_ne_nil _ _))
    have read := means.read s blanks_nil behind
    obtain ⟨next,whole,same⟩ := ih (given.next fresh means) (by simpa using distinct)
      (fun m member => accepted m (List.mem_cons_of_mem _ member)) (fun _ => follows (List.cons_ne_nil _ _))
    refine ⟨next,by simpa using whole,?_⟩
    have begins := element_item leads (literal_starts m.2 (others ++ rest))
    simp only [List.append_assoc,List.nil_append] at begins read ⊢
    rw [List.map_cons,List.cons_append,positional,begins]
    dsimp only
    rw [read]
    dsimp only
    rw [same,Bool.false_and,List.isEmpty_cons,Bool.and_false]

theorem settings_list (distinct : (members.map Prod.fst).Nodup)
    (accepted : ∀ m ∈ members, ∃ content, m.1.Means conv m.2 content)
    (firsts : members.map Prod.fst <+: Field.all)
    (written : ListText (members.map fun m => m.2.text) text) :
    ∃ s, Given conv members s ∧ settingsFrom conv (.ofList text) = .ok s := by
  obtain ⟨before,row,inside,behind,blanks,rows,insides,behinds,rfl⟩ := written
  have follows : Follows closers (inside ++ ']' :: behind) := blanks_follow insides (closer_follows (by decide) behind)
  obtain ⟨fields,same⟩ := firsts
  obtain ⟨s,given,read⟩ := positional_row fields given_none rows.of_map distinct accepted (fun _ => follows)
  rw [same,positional_closed insides] at read
  have whole := readSettings_list conv blanks (row ++ (inside ++ ']' :: behind))
  rw [read] at whole
  refine ⟨s,given,settingsFrom_ok ?_ behinds⟩
  simpa only [List.append_assoc,List.cons_append] using whole

theorem readNumber_other (conv : Conversion) {c : Char} (listed : c ∈ ['n','t','f','"','[','\x7b'])
    (text : List Char) :
    ∃ error, readNumber conv (c :: text) = .error error := by
  have plain : ∀ c ∈ ['n','t','f','"','[','\x7b'], isBlank c = false ∧ (c = '-' || c.isDigit) = false :=
    List.all_iff_forall_prop.mp (by decide)
  obtain ⟨solid,other⟩ := plain c listed
  unfold readNumber
  rw [skipBlank_solid solid]
  exact ⟨_,if_neg (by rw [startsNumeral,other]; decide)⟩

-- If a value is read at all, it is read to its end.
def Stops {β : Type} (rest : List Char) (read : Read β) : Prop := ∀ told, read = .ok told → told.2 = rest

theorem Stops.store {β : Type} {read : Read β} (stops : Stops rest read) (write : β → Settings) :
    Stops rest (store write read) := by
  intro told same
  cases read with
  | error error => cases same
  | ok read =>
    cases same
    exact stops read rfl

theorem readNumber_stops (value_ : IsValue value) (follows : Follows closers rest) :
    Stops rest (readNumber conv (value ++ rest)) := by
  intro told same
  rcases value_head value_ with ⟨n,rfl⟩ | rfl | ⟨c,more,rfl,listed⟩
  · have read := readNumber_text conv n blanks_nil follows
    rw [List.nil_append,same] at read
    split at read
    · cases read
    · cases read
      rfl
  · obtain ⟨error,read⟩ := readNumber_other conv (c := 'n') (by decide) ('u' :: 'l' :: 'l' :: rest)
    cases same.symm.trans read
  · obtain ⟨error,read⟩ := readNumber_other conv (List.mem_cons_of_mem _ listed) (more ++ rest)
    cases same.symm.trans read

theorem readSeconds_stops (value_ : IsValue value) (follows : Follows closers rest) :
    Stops rest (readSeconds conv (value ++ rest)) := by
  intro told same
  unfold readSeconds at same
  cases read : readNumber conv (value ++ rest) with
  | error error =>
    rw [read] at same
    cases same
  | ok number =>
    rw [read] at same
    dsimp only at same
    split at same
    · cases same
    · cases same
      exact readNumber_stops value_ follows number read

theorem readOptionalSeconds_stops (value_ : IsValue value) (follows : Follows closers rest) :
    Stops rest (readOptionalSeconds conv (value ++ rest)) := by
  intro told same
  by_cases null : value = wordNull
  · subst null
    have read := readOptionalSeconds_null conv blanks_nil rest
    cases same.symm.trans read
    rfl
  · have other : ∀ tail, skipBlank (value ++ rest) ≠ wordNull ++ tail := by
      intro tail begins
      rcases value_head value_ with ⟨n,rfl⟩ | rfl | ⟨c,more,rfl,listed⟩
      · exact number_not_null n blanks_nil tail begins
      · exact null rfl
      · have solid : ∀ c ∈ ['t','f','"','[','\x7b'], isBlank c = false ∧ c ≠ 'n' :=
          List.all_iff_forall_prop.mp (by decide)
        rw [List.cons_append,skipBlank_solid (solid c listed).1] at begins
        exact (solid c listed).2 (List.cons.inj begins).1
    rw [readOptionalSeconds_some other] at same
    cases read : readSeconds conv (value ++ rest) with
    | error error =>
      rw [read] at same
      cases same
    | ok seconds =>
      rw [read] at same
      cases same
      exact readSeconds_stops value_ follows seconds read

theorem read_stops (field : Field) (s : Settings) (value_ : IsValue value) (follows : Follows closers rest) :
    Stops rest (field.read conv s (value ++ rest)) := by
  cases field with
  | cooldown => exact (readSeconds_stops value_ follows).store _
  | acquireTimeout => exact (readOptionalSeconds_stops value_ follows).store _
  | initialRate | targetLoad | lowerBound | upperBound | maxBurst => exact (readNumber_stops value_ follows).store _

theorem positional_long (row : Row (fun value text => value = text) first values text)
    (each : ∀ value ∈ values, IsValue value) (follows : Follows closers rest) (more : fields.length < values.length)
    (s : Settings) : ∃ error, positional conv fields first s (text ++ rest) = .error error := by
  induction row generalizing fields s with
  | nil => exact absurd more (Nat.not_lt_zero _)
  | @cons first lead value text values others leads item row ih =>
    subst item
    have value_ := each value List.mem_cons_self
    have starts := value_starts value_ (others ++ rest)
    rw [List.append_assoc,List.append_assoc]
    cases fields with
    | nil =>
      rw [positional,closeList_further leads starts]
      exact ⟨_,rfl⟩
    | cons field fields =>
      rw [positional,element_item leads starts]
      dsimp only
      cases read : field.read conv s (value ++ (others ++ rest)) with
      | error error => exact ⟨error,rfl⟩
      | ok told =>
        obtain ⟨next,behind⟩ := told
        have stopped : behind = others ++ rest := read_stops field s value_ (row.follows follows) _ read
        subst stopped
        exact ih (fun value member => each value (List.mem_cons_of_mem _ member)) (Nat.lt_of_succ_lt_succ more) next

theorem settings_long (each : ∀ value ∈ values, IsValue value) (more : Field.all.length < values.length)
    (written : ListText values text) : ∃ error, settingsFrom conv (.ofList text) = .error error := by
  obtain ⟨before,row,inside,behind,blanks,rows,insides,_,rfl⟩ := written
  have follows : Follows closers (inside ++ ']' :: behind) := blanks_follow insides (closer_follows (by decide) behind)
  obtain ⟨error,read⟩ := positional_long rows each follows more .default
  have whole := readSettings_list conv blanks (row ++ (inside ++ ']' :: behind))
  rw [read] at whole
  refine ⟨error,settingsFrom_error ?_⟩
  simpa only [List.append_assoc,List.cons_append] using whole

end Lists

-- The last clause is about numbers: under a correct conversion a field holds the nearest double.
theorem settings_meant (distinct : (members.map Prod.fst).Nodup)
    (accepted : ∀ m ∈ members, ∃ content, m.1.Means conv m.2 content) :
    (∃ s, Given conv members s ∧ (∀ t, Given conv members t → t = s) ∧
      (∀ order text, order.Perm members → ObjectText order text → settingsFrom conv (.ofList text) = .ok s) ∧
      (members.map Prod.fst <+: Field.all → ∀ text, ListText (members.map fun m => m.2.text) text →
        settingsFrom conv (.ofList text) = .ok s)) ∧
    (∀ key text, FurtherKey members key text →
      ((∀ field : Field, key ≠ field.key.toList) →
        settingsFrom conv (.ofList text) = .error (.mismatch (.unknownKey key (Field.all.map Field.key)))) ∧
      ∀ field ∈ members.map Prod.fst, key = field.key.toList →
        settingsFrom conv (.ofList text) = .error (.mismatch (.repeatedKey field.key))) ∧
    (∀ values text, (∀ value ∈ values, IsValue value) → 7 < values.length → ListText values text →
      ∃ error, settingsFrom conv (.ofList text) = .error error) ∧
    Field.all.map Field.key = ["initial_rate","target_cpu_percent","cooldown_secs","lower_bound","upper_bound",
      "max_burst_secs","acquire_timeout_secs"] ∧
    (conv.Correct → ∀ (field : Field) n content, field.Means conv (.number n) content ↔ ∃ x, n.Denotes x ∧
      (field ∈ [.initialRate,.targetLoad,.lowerBound,.upperBound,.maxBurst] ∧ content = .number x ∨
        field ∈ [.cooldown,.acquireTimeout] ∧ ∃ d, Nanos.Counts x d ∧ content = .duration d)) := by
  obtain ⟨s,given⟩ := given_some distinct accepted
  refine ⟨⟨s,given,fun t other => other.unique given,?_,?_⟩,?_,?_,rfl,fun correct _ n _ => Field.means_correct correct n⟩
  · intro order text same written
    have apart : (order.map Prod.fst).Nodup := (same.map Prod.fst).nodup_iff.mpr distinct
    obtain ⟨t,other,read⟩ := settings_object apart (fun m member => accepted m (same.mem_iff.mp member)) written
    rw [read,other.unique (given.perm same)]
  · intro firsts text written
    obtain ⟨t,other,read⟩ := settings_list distinct accepted firsts written
    rw [read,other.unique given]
  · exact fun key text written => settings_further distinct accepted written
  · exact fun values text each more written => settings_long each more written

theorem settings_meant_reversed :
    let one : Decimal := ⟨false,['1'],some ['5'],none,by decide,nofun,fun _ same => by cases same; decide⟩
    let two : Decimal :=
      ⟨false,['3','3'],some (.replicate 15 '3'),none,by decide,nofun,fun _ same => by cases same; decide⟩
    let members := [(Field.acquireTimeout,Literal.number one),(Field.targetLoad,Literal.number two)]
    let text := "\x7b\"acquire_timeout_secs\": 1.5,\"target_cpu_percent\":33.333333333333333\x7d"
    (members.map Prod.fst).Nodup ∧ (∀ m ∈ members, ∃ content, m.1.Means .nearest m.2 content) ∧
      ObjectText members text.toList ∧ two.Denotes (100 / 3) ∧
      settingsOfText text = .ok { Settings.default with targetLoad := 100 / 3, acquireTimeout := some 1500000000 } := by
  intro one two members text
  have first : Conversion.nearest.value one.numeral = some (3 / 2) := by decide +kernel
  have second : Conversion.nearest.value two.numeral = some (100 / 3) := by decide +kernel
  have counts : Nanos.Counts (3 / 2) 1500000000 :=
    ((Nanos.ofSeconds_told (Conversion.nearest.finite first)).1 _).mp (by decide +kernel)
  have timeout : Field.acquireTimeout.Means .nearest (.number one) (.duration 1500000000) :=
    .seconds (by decide) first counts
  have target : Field.targetLoad.Means .nearest (.number two) (.number (100 / 3)) := .number (by decide) second
  have distinct : (members.map Prod.fst).Nodup := by decide
  have accepted : ∀ m ∈ members, ∃ content, m.1.Means .nearest m.2 content :=
    List.forall_mem_cons.mpr ⟨⟨_,timeout⟩,List.forall_mem_singleton.mpr ⟨_,target⟩⟩
  have given : Given .nearest members { Settings.default with targetLoad := 100 / 3, acquireTimeout := some 1500000000 } := by
    refine ⟨List.forall_mem_cons.mpr ⟨timeout,List.forall_mem_singleton.mpr target⟩,fun field absent => ?_⟩
    revert absent
    cases field with
    | acquireTimeout | targetLoad => exact fun absent => absurd (by decide) absent
    | initialRate | cooldown | lowerBound | upperBound | maxBurst => exact fun _ => rfl
  have written : ObjectText members text.toList := by
    have early : Named (.acquireTimeout,.number one) "\"acquire_timeout_secs\": 1.5".toList :=
      ⟨_,spelled_ordinary (List.all_iff_forall_prop.mp (by decide)),[],[' '],blanks_nil,by decide,by decide⟩
    have late : Named (.targetLoad,.number two) "\"target_cpu_percent\":33.333333333333333".toList :=
      ⟨_,spelled_ordinary (List.all_iff_forall_prop.mp (by decide)),[],[],blanks_nil,blanks_nil,by decide⟩
    exact ⟨[],_,[],[],blanks_nil,.cons blanks_nil early (.cons ⟨[],[],blanks_nil,blanks_nil,rfl⟩ late .nil),blanks_nil,
      blanks_nil,by decide⟩
  obtain ⟨⟨s,_,unique,object,_⟩,_,_,_,meant⟩ := settings_meant distinct accepted
  have read : settingsOfText _ = _ := object members text.toList (.refl _) written
  rw [String.ofList_toList,← unique _ given] at read
  obtain ⟨x,denotes,⟨_,same⟩ | ⟨timed,_⟩⟩ := (meant Conversion.nearest_correct .targetLoad two _).mp target
  · cases same
    exact ⟨distinct,accepted,written,denotes,read⟩
  · exact absurd timed (by decide)

end LoadPacing.JsonText
