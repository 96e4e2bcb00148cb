import LoadPacing.Proofs.JsonText.ReadingText

-- What a report's text says. Unknown members count for nothing; a reading without one of its keys spoils the report.
namespace LoadPacing.JsonText

section Texts

def reportKeys : List String := ["cpu_stats"]

-- A text that is one value with nothing but blanks around it.
def Whole (value : List Char) (text : String) : Prop :=
  ∃ before after, Blanks before ∧ Blanks after ∧ text = .ofList (before ++ value ++ after)

inductive ListAlike : List Char → List Char → Prop where
  | same {value : List Char} (value_ : IsValue value) : ListAlike value value
  | list {values others : List (List Char)} {value other : List Char} (old : Bracketed values value)
      (alike : List.Forall₂ ReadingAlike values others) (new : Bracketed others other) : ListAlike value other

-- The same report: the members of its object reworked, and so those of any of its readings.
inductive ReportAlike : List Char → List Char → Prop where
  | object {members revised order : List (List Char × List Char)} {value other : List Char} (old : Braced members value)
      (alike : List.Forall₂ (fun m n => m.1 = n.1 ∧ ListAlike m.2 n.2) members revised)
      (reworked : Reworked reportKeys revised order) (new : Braced order other) : ReportAlike value other
  | list {values others : List (List Char)} {value other : List Char} (old : Bracketed values value)
      (alike : List.Forall₂ ListAlike values others) (new : Bracketed others other) : ReportAlike value other

-- Where the readings stand: at their key, behind other members, or in front in a list.
inductive Lists (values : List (List Char)) : List (List Char × List Char) → List Char → Prop where
  | object {front back : List (List Char × List Char)} {key list report : List Char}
      (object : Braced (front ++ (key,list) :: back) report) (spelled : Spelled key "cpu_stats".toList)
      (listed : Bracketed values list) : Lists values front report
  | list {others : List (List Char)} {list report : List Char} (outer : Bracketed (list :: others) report)
      (listed : Bracketed values list) : Lists values [] report

end Texts

variable {conv : Conversion} {value other blank rest report chars : List Char} {values others good more : List (List Char)}
  {members done front order : List (List Char × List Char)} {m : List Char × List Char} {readings : List Reading}
  {state : Option (List Reading)} {text again : String}

section Lists
variable {α β ε : Type} {f : α → Except ε β} {xs ys : List α} {x : α} {contents : List β}

theorem mapM_cons_ok : (x :: xs).mapM f = .ok contents ↔
    ∃ content others, f x = .ok content ∧ xs.mapM f = .ok others ∧ content :: others = contents := by
  rw [List.mapM_cons]
  cases f x with
  | error error => simp [bind,Except.bind]
  | ok content => cases xs.mapM f <;> simp [bind,Except.bind,pure,Except.pure]

theorem mapM_each (read : xs.mapM f = .ok contents) : ∀ x ∈ xs, ∃ content, f x = .ok content := by
  induction xs generalizing contents with
  | nil => exact nofun
  | cons x xs ih =>
    obtain ⟨content,others,own,theirs,_⟩ := mapM_cons_ok.mp read
    exact List.forall_mem_cons.mpr ⟨⟨content,own⟩,ih theirs⟩

theorem mapM_alike (alike : List.Forall₂ (fun x y => ∀ content, f x = .ok content → f y = .ok content) xs ys)
    (read : xs.mapM f = .ok contents) : ys.mapM f = .ok contents := by
  induction alike generalizing contents with
  | nil => exact read
  | cons same alike ih =>
    obtain ⟨content,others,own,theirs,whole⟩ := mapM_cons_ok.mp read
    exact mapM_cons_ok.mpr ⟨content,others,same content own,ih theirs,whole⟩

theorem mapM_first {error : ε} (before : ∀ x ∈ xs, ∃ content, f x = .ok content) (bad : f x = .error error) (ys : List α) :
    (xs ++ x :: ys).mapM f = .error error := by
  induction xs with
  | nil =>
    rw [List.nil_append,List.mapM_cons,bad]
    rfl
  | cons first xs ih =>
    obtain ⟨⟨content,own⟩,others⟩ := List.forall_mem_cons.mp before
    rw [List.cons_append,List.mapM_cons,own]
    simp [ih others,bind,Except.bind]

end Lists

section Readings

theorem readings_list (list : Bracketed values value) :
    told (readList conv (readReading conv)) value = values.mapM (told (readReading conv)) :=
  (told_list conv list fun value member => readReading_alone conv (list.each value member)).1

theorem readings_alone (conv : Conversion) (value_ : IsValue value) : Alone (readList conv (readReading conv)) value :=
  readList_alone conv (fun _ => readReading_alone conv) value_

def ReadingsOf (conv : Conversion) (value : List Char) (readings : List Reading) : Prop :=
  told (readList conv (readReading conv)) value = .ok readings

theorem readings_each {list : List Char} (listed : Bracketed values list) (read : ReadingsOf conv list readings) :
    ∀ value ∈ values, ∃ reading, told (readReading conv) value = .ok reading := by
  unfold ReadingsOf at read
  rw [readings_list listed] at read
  exact mapM_each read

theorem readings_first {bad list : List Char} {error : ReadError} (listed : Bracketed (good ++ bad :: more) list)
    (before : ∀ value ∈ good, ∃ reading, told (readReading conv) value = .ok reading)
    (spoiled : told (readReading conv) bad = .error error) :
    told (readList conv (readReading conv)) list = .error error := by
  rw [readings_list listed]
  exact mapM_first before spoiled more

theorem ListAlike.read (alike : ListAlike value other) (read : ReadingsOf conv value readings) :
    ReadingsOf conv other readings := by
  cases alike with
  | same => exact read
  | list old alike new =>
    unfold ReadingsOf at read ⊢
    rw [readings_list old] at read
    rw [readings_list new]
    exact mapM_alike (alike.imp fun _ _ alike _ => alike.read) read

end Readings

section Members

def reportTake (conv : Conversion) (state : Option (List Reading)) (key value : List Char) :
    Except ReadError (Option (List Reading)) :=
  if key = "cpu_stats".toList then
    if state.isSome then .error (.mismatch (.repeatedKey "cpu_stats"))
    else (told (readList conv (readReading conv)) value).map some
  else .ok state

theorem reportMember_behind (conv : Conversion) (state : Option (List Reading)) (key value : List Char)
    (value_ : IsValue value) :
    Behind (reportMember conv state key) value (reportTake conv state key value) := by
  unfold reportMember reportTake
  split
  · exact newMember_behind "cpu_stats" _ _ (readings_alone conv value_)
  · exact passMember_behind state value_

structure Reported (conv : Conversion) (members : List (List Char × List Char)) (state : Option (List Reading)) :
    Prop where
  spelled : ∀ m ∈ members, ∃ chars, Spelled m.1 chars
  readings : Held "cpu_stats" (ReadingsOf conv) members state

theorem reported_nil (state : Option (List Reading)) : Reported conv [] state ↔ none = state := by
  constructor
  · exact fun reported => (reported.readings.absent nofun).symm
  · rintro rfl
    exact ⟨nofun,held_none.mpr nofun⟩

theorem reported_next (spelled : Spelled m.1 chars) :
    Reported conv (done ++ [m]) state ↔ ∃ prior, Reported conv done prior ∧ reportTake conv prior chars m.2 = .ok state := by
  have keys : (∀ n ∈ done ++ [m], ∃ chars, Spelled n.1 chars) ↔ ∀ n ∈ done, ∃ chars, Spelled n.1 chars :=
    spelled_snoc spelled
  unfold reportTake
  split
  · rename_i key
    subst key
    simp only [taken_once]
    constructor
    · rintro ⟨all,held⟩
      obtain ⟨nothing,content,rfl,means⟩ := (held_key spelled).mp held
      exact ⟨none,⟨keys.mp all,nothing⟩,rfl,content,means,rfl⟩
    · rintro ⟨_,⟨all,held⟩,rfl,content,means,rfl⟩
      exact ⟨keys.mpr all,(held_key spelled).mpr ⟨held,content,rfl,means⟩⟩
  · rename_i unnamed
    have apart : ¬ Spelled m.1 "cpu_stats".toList := fun same => unnamed (spelled.unique same)
    constructor
    · exact fun ⟨all,held⟩ => ⟨state,⟨keys.mp all,(held_other apart).mp held⟩,rfl⟩
    · rintro ⟨_,⟨all,held⟩,same⟩
      obtain rfl := Except.ok.inj same
      exact ⟨keys.mpr all,(held_other apart).mpr held⟩

theorem reported_fold (keys : ∀ m ∈ members, Raw m.1) (each : ∀ m ∈ members, IsValue m.2) :
    members.foldlM (memberStep (reportMember conv)) none = .ok state ↔ Reported conv members state :=
  fold_holds keys each (reportMember_behind conv) reported_nil (fun _ _ => Reported.spelled) fun _ _ _ _ spelled _ =>
    reported_next spelled

end Members

section Reports

-- A list has its readings in front; nothing may stand behind them.
def fronted (conv : Conversion) : List (List Char) → Except ReadError (List Reading)
  | [] => .ok []
  | list :: others =>
    match told (readList conv (readReading conv)) list with
    | .error error => .error error
    | .ok readings => if others.isEmpty then .ok readings else .error .malformed

theorem positionalReport_row (row : Row (fun value text => value = text) true values value)
    (each : ∀ value ∈ values, IsValue value) (after : Blanks blank) (rest : List Char) :
    positionalReport conv (value ++ (blank ++ ']' :: rest)) = (fronted conv values).map fun readings => (readings,rest) := by
  have ends := blanks_follow after (closer_follows (by decide : ']' ∈ closers) rest)
  unfold positionalReport fronted
  cases row with
  | nil =>
    rw [List.nil_append,element_closed _ after]
    simp only [closeList_closed after]
    rfl
  | @cons _ lead list _ values others leads item later =>
    subst item
    obtain ⟨list_,each⟩ := List.forall_mem_cons.mp each
    have read := (readings_alone conv list_).here (later.follows ends)
    rw [List.append_assoc,List.append_assoc,element_item leads (value_starts list_ _)]
    dsimp only
    rw [read]
    cases told (readList conv (readReading conv)) list with
    | error error => rfl
    | ok readings =>
      dsimp only [Except.map]
      cases later with
      | nil =>
        rw [List.nil_append,closeList_closed after]
        rfl
      | @cons _ lead further _ values others leads item later =>
        subst item
        have starts := value_starts (each further List.mem_cons_self) (others ++ (blank ++ ']' :: rest))
        rw [List.append_assoc,List.append_assoc,closeList_further leads starts]
        rfl

theorem report_list (list : Bracketed values value) :
    told (readReport conv) value = fronted conv values ∧ Alone (readReport conv) value := by
  obtain ⟨row,blank,written,after,opens⟩ := list.opens
  refine alone_made fun front rest blanks _ => ?_
  unfold readReport
  rw [opens front rest blanks]
  exact positionalReport_row written list.each after rest

theorem report_object (object : Braced members value) :
    told (readReport conv) value =
        (members.foldlM (memberStep (reportMember conv)) none).map (fun readings => readings.getD []) ∧
      Alone (readReport conv) value := by
  refine alone_made fun front rest blanks _ => ?_
  obtain ⟨inside,begins,read⟩ := readMembers_braced object
    (fun m member state key => ⟨_,reportMember_behind conv state key m.2 (object.each m member)⟩) none rest
  unfold readReport
  rw [skipBlank_value object.isValue blanks,begins]
  simp only [read]
  cases members.foldlM (memberStep (reportMember conv)) none <;> rfl

theorem report_whole (object : Braced members value) :
    told (readReport conv) value = .ok readings ↔ ∃ state, Reported conv members state ∧ state.getD [] = readings := by
  rw [(report_object object).1]
  constructor
  · intro read
    cases fold : members.foldlM (memberStep (reportMember conv)) none with
    | error error =>
      rw [fold] at read
      cases read
    | ok state =>
      rw [fold] at read
      exact ⟨state,(reported_fold object.keys object.each).mp fold,Except.ok.inj read⟩
  · rintro ⟨state,reported,rfl⟩
    rw [(reported_fold object.keys object.each).mpr reported]
    rfl

theorem fronted_ok {list : List Char} :
    fronted conv (list :: others) = .ok readings ↔ ReadingsOf conv list readings ∧ others = [] := by
  unfold fronted ReadingsOf
  cases read : told (readList conv (readReading conv)) list with
  | error error => simp [read]
  | ok found => cases others <;> simp [read]

theorem reportFrom_whole (alone : Alone (readReport conv) report) (whole : Whole report text) :
    reportFrom conv text = told (readReport conv) report := by
  obtain ⟨before,after,blanks,blanks',rfl⟩ := whole
  have follows : Follows closers after := by
    rw [← List.append_nil after]
    exact blanks_follow blanks' follows_nil
  unfold reportFrom readText
  rw [String.toList_ofList,alone before after blanks follows]
  cases told (readReport conv) report with
  | error error => rfl
  | ok readings =>
    simp only [Except.map,skipBlank_all blanks',List.isEmpty_nil,if_true]

end Reports

section Tolerance

theorem ReportAlike.read (alike : ReportAlike value other) (read : told (readReport conv) value = .ok readings) :
    told (readReport conv) other = .ok readings := by
  cases alike with
  | list old alike new =>
    rw [(report_list old).1] at read
    rw [(report_list new).1]
    cases alike with
    | nil => exact read
    | cons same alike =>
      obtain ⟨own,rfl⟩ := fronted_ok.mp read
      exact fronted_ok.mpr ⟨same.read own,List.forall₂_nil_left_iff.mp alike⟩
  | @object members revised order _ _ old alike reworked new =>
    obtain ⟨state,⟨keys,held⟩,stored⟩ := (report_whole old).mp read
    have kept : Held "cpu_stats" (ReadingsOf conv) revised state :=
      held.revised (alike.imp fun m n same => ⟨same.1,fun _ means => same.2.read means⟩)
    have spelled : ∀ n ∈ revised, ∃ chars, Spelled n.1 chars := by
      intro n member
      obtain ⟨m,inside,same,_⟩ := mem_alike alike n member
      exact same ▸ keys m inside
    exact (report_whole new).mpr ⟨state,⟨reworked.spelled spelled,kept.reworked (by decide) reworked⟩,stored⟩

theorem ReportAlike.alone (conv : Conversion) (alike : ReportAlike value other) :
    Alone (readReport conv) value ∧ Alone (readReport conv) other := by
  cases alike with
  | list old _ new => exact ⟨(report_list old).2,(report_list new).2⟩
  | object old _ _ new => exact ⟨(report_object old).2,(report_object new).2⟩

theorem Lists.alone (conv : Conversion) (lists : Lists values front report) : Alone (readReport conv) report := by
  cases lists with
  | object object => exact (report_object object).2
  | list outer => exact (report_list outer).2

theorem Lists.each (lists : Lists values front report) (read : told (readReport conv) report = .ok readings) :
    ∀ value ∈ values, ∃ reading, told (readReading conv) value = .ok reading := by
  cases lists with
  | list outer listed =>
    rw [(report_list outer).1] at read
    exact readings_each listed (fronted_ok.mp read).1
  | object object spelled listed =>
    obtain ⟨_,reported,_⟩ := (report_whole object).mp read
    obtain ⟨_,_,held⟩ := reported.readings.given _ (List.mem_append_right front List.mem_cons_self) spelled
    exact readings_each listed held

theorem reported_unknown (unknown : ∀ m ∈ members, Unknown reportKeys m) : Reported conv members none where
  spelled := by
    intro m member
    obtain ⟨chars,spelled,_⟩ := unknown m member
    exact ⟨chars,spelled⟩
  readings := held_none.mpr fun m member => (unknown m member).apart (by decide)

theorem Lists.first {bad : List Char} {error : ReadError} (lists : Lists (good ++ bad :: more) front report)
    (unknown : ∀ m ∈ front, Unknown reportKeys m)
    (before : ∀ value ∈ good, ∃ reading, told (readReading conv) value = .ok reading)
    (spoiled : told (readReading conv) bad = .error error) : told (readReport conv) report = .error error := by
  cases lists with
  | list outer listed =>
    rw [(report_list outer).1,fronted,readings_first listed before spoiled]
  | @object _ back key list _ object spelled listed =>
    have fold : front.foldlM (memberStep (reportMember conv)) none = .ok none :=
      (reported_fold (fun m member => object.keys m (List.mem_append_left _ member))
        fun m member => object.each m (List.mem_append_left _ member)).mpr (reported_unknown unknown)
    have step : memberStep (reportMember conv) none (key,list) = .error error := by
      rw [memberStep_spelled spelled (reportMember_behind conv none _ list listed.isValue)]
      simp [reportTake,readings_first listed before spoiled,Except.map]
    rw [(report_object object).1,List.foldlM_append,fold]
    simp [bind,Except.bind,step,Except.map]

theorem report_bare (object : Braced members report) (unknown : ∀ m ∈ members, Unknown reportKeys m) :
    told (readReport conv) report = .ok [] :=
  (report_whole object).mpr ⟨none,reported_unknown unknown,rfl⟩

end Tolerance

-- Neither unknown members nor the order of members say anything, in a report or in its readings.
theorem reports_tolerate (conv : Conversion) (whole : Whole report text) :
    (∀ other again readings, ReportAlike report other → Whole other again → reportFrom conv text = .ok readings →
      reportFrom conv again = .ok readings ∧ (reportFrom conv again).map Load.sample = .ok (Load.sample readings)) ∧
    (∀ values front, Lists values front report → ∀ value ∈ values, ∀ members, Braced members value →
      ((∀ m ∈ members, ¬ Spelled m.1 "location".toList) ∨ ∀ m ∈ members, ¬ Spelled m.1 "cpu_percent".toList) →
      ∃ error, reportFrom conv text = .error error) ∧
    (∀ good bad more front members, Lists (good ++ bad :: more) front report → (∀ m ∈ front, Unknown reportKeys m) →
      (∀ value ∈ good, ∃ reading, told (readReading conv) value = .ok reading) → Braced members bad →
      (∀ percent, Filled conv members ⟨none,percent⟩ → reportFrom conv text = .error (.mismatch (.missingKey "location"))) ∧
      ∀ location, Filled conv members ⟨some location,none⟩ →
        reportFrom conv text = .error (.mismatch (.missingKey "cpu_percent"))) ∧
    (∀ members, Braced members report → (∀ m ∈ members, Unknown reportKeys m) → reportFrom conv text = .ok []) ∧
    (Bracketed [] report → reportFrom conv text = .ok []) := by
  refine ⟨?_,?_,?_,?_,?_⟩
  · intro other again readings alike whole' read
    obtain ⟨one,two⟩ := alike.alone conv
    rw [reportFrom_whole one whole] at read
    have same := (reportFrom_whole two whole').trans (alike.read read)
    exact ⟨same,by rw [same]; rfl⟩
  · intro values front lists value member members object lacking
    rw [reportFrom_whole (lists.alone conv) whole]
    cases read : told (readReport conv) report with
    | error error => exact ⟨error,rfl⟩
    | ok readings =>
      obtain ⟨reading,own⟩ := lists.each read value member
      obtain ⟨error,wrong⟩ := reading_lacking object lacking
      cases own.symm.trans wrong
  · intro good bad more front members lists unknown before object
    rw [reportFrom_whole (lists.alone conv) whole]
    refine ⟨fun percent filled => ?_,fun location filled => ?_⟩
    · exact lists.first unknown before (reading_unlocated object filled)
    · exact lists.first unknown before (reading_unmeasured object filled)
  · intro members object unknown
    rw [reportFrom_whole (report_object object).2 whole]
    exact report_bare object unknown
  · intro list
    exact (reportFrom_whole (report_list list).2 whole).trans (report_list list).1

example : reportOfText "\x7b\"cpu_stats\":[[\"a\",50],\x7b\"zone\":[]\x7d]\x7d" = .error (.mismatch (.missingKey "location")) := by
  decide +kernel

theorem reports_tolerate_turned :
    let report := "\x7b\"cpu_stats\":[\x7b\"location\":\"a\",\"cpu_percent\":50\x7d]\x7d"
    let other := "\x7b\"zone\":\x7b\x7d,\"cpu_stats\":[\x7b\"cpu_percent\":50,\"note\":[[true]],\"location\":\"a\"\x7d]\x7d"
    Whole report.toList report ∧ ReportAlike report.toList other.toList ∧ Whole other.toList other ∧
      reportOfText report = .ok [⟨"a",50⟩] ∧ reportOfText other = .ok [⟨"a",50⟩] := by
  intro report other
  have whole (text : String) : Whole text.toList text := ⟨[],[],blanks_nil,blanks_nil,by simp⟩
  have read : reportOfText report = .ok [⟨"a",50⟩] := by decide +kernel
  let fifty : Decimal := ⟨false,['5','0'],none,none,by decide,nofun,nofun⟩
  let location := ("location".toList,"\"a\"".toList)
  let percent := ("cpu_percent".toList,fifty.text)
  let note := ("note".toList,"[[true]]".toList)
  let zone := ("zone".toList,"\x7b\x7d".toList)
  have spells (key : String) (plain : ∀ c ∈ key.toList, Ordinary c) : Spelled key.toList key.toList := spelled_ordinary plain
  have pair (m : List Char × List Char) : Paired m.1 m.2 ('"' :: m.1 ++ '"' :: ':' :: m.2) :=
    ⟨[],[],blanks_nil,blanks_nil,by simp⟩
  have comma : Lead false [','] := ⟨[],[],blanks_nil,blanks_nil,rfl⟩
  have one : Spelled location.1 "location".toList := spells _ (List.all_iff_forall_prop.mp (by decide))
  have two : Spelled percent.1 "cpu_percent".toList := spells _ (List.all_iff_forall_prop.mp (by decide))
  have three : Spelled note.1 "note".toList := spells _ (List.all_iff_forall_prop.mp (by decide))
  have four : Spelled zone.1 "zone".toList := spells _ (List.all_iff_forall_prop.mp (by decide))
  have five : Spelled "cpu_stats".toList "cpu_stats".toList := spells _ (List.all_iff_forall_prop.mp (by decide))
  have quoted : IsValue location.2 := .string (.plain (by decide) .nil : Raw ['a'])
  have nested : IsValue note.2 := by
    have inner : Bracketed [wordTrue] "[true]".toList :=
      ⟨List.forall_mem_singleton.mpr .true_,_,[],.cons blanks_nil rfl .nil,blanks_nil,by decide⟩
    have outer : Bracketed ["[true]".toList] note.2 :=
      ⟨List.forall_mem_singleton.mpr inner.isValue,_,[],.cons blanks_nil rfl .nil,blanks_nil,by decide⟩
    exact outer.isValue
  have empty : Braced [] zone.2 := ⟨nofun,nofun,_,[],.nil,blanks_nil,by decide⟩
  let old := "\x7b\"location\":\"a\",\"cpu_percent\":50\x7d".toList
  let new := "\x7b\"cpu_percent\":50,\"note\":[[true]],\"location\":\"a\"\x7d".toList
  have oldReading : Braced [location,percent] old := by
    refine ⟨?_,?_,_,[],.cons blanks_nil (pair _) (.cons comma (pair _) .nil),blanks_nil,by decide⟩
    · simp [one.raw,two.raw]
    · simp [quoted,percent,IsValue.number fifty]
  have newReading : Braced [percent,note,location] new := by
    refine ⟨?_,?_,_,[],.cons blanks_nil (pair _) (.cons comma (pair _) (.cons comma (pair _) .nil)),blanks_nil,by decide⟩
    · simp [one.raw,two.raw,three.raw]
    · simp [quoted,nested,percent,IsValue.number fifty]
  have readings : ReadingAlike old new := by
    have reworked : Reworked readingKeys [location,percent] [percent,note,location] :=
      ⟨[note],List.forall_mem_singleton.mpr ⟨_,three,by decide⟩,by decide⟩
    exact .object oldReading reworked newReading
  let oldList := ("cpu_stats".toList,'[' :: old ++ [']'])
  let newList := ("cpu_stats".toList,'[' :: new ++ [']'])
  have oldListed : Bracketed [old] oldList.2 :=
    ⟨List.forall_mem_singleton.mpr oldReading.isValue,_,[],.cons blanks_nil rfl .nil,blanks_nil,by simp [oldList]⟩
  have newListed : Bracketed [new] newList.2 :=
    ⟨List.forall_mem_singleton.mpr newReading.isValue,_,[],.cons blanks_nil rfl .nil,blanks_nil,by simp [newList]⟩
  have oldReport : Braced [oldList] report.toList :=
    ⟨List.forall_mem_singleton.mpr five.raw,List.forall_mem_singleton.mpr oldListed.isValue,_,[],
      .cons blanks_nil (pair _) .nil,blanks_nil,by decide⟩
  have newReport : Braced [zone,newList] other.toList :=
    ⟨List.forall_mem_cons.mpr ⟨four.raw,List.forall_mem_singleton.mpr five.raw⟩,
      List.forall_mem_cons.mpr ⟨empty.isValue,List.forall_mem_singleton.mpr newListed.isValue⟩,_,[],
      .cons blanks_nil (pair _) (.cons comma (pair _) .nil),blanks_nil,by decide⟩
  have lists : List.Forall₂ (fun m n => m.1 = n.1 ∧ ListAlike m.2 n.2) [oldList] [newList] :=
    .cons ⟨rfl,.list oldListed (.cons readings .nil) newListed⟩ .nil
  have reworked : Reworked reportKeys [newList] [zone,newList] :=
    ⟨[zone],List.forall_mem_singleton.mpr ⟨_,four,by decide⟩,by decide⟩
  have alike : ReportAlike report.toList other.toList := .object oldReport lists reworked newReport
  exact ⟨whole _,alike,whole _,read,((reports_tolerate .nearest (whole report)).1 _ _ _ alike (whole other) read).1⟩

end LoadPacing.JsonText
