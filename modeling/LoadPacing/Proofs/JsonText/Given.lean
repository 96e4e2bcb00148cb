import LoadPacing.Proofs.JsonText.Durations
import LoadPacing.Proofs.JsonText.Rows

-- The settings that the members of an object give, each field read for what its literal means to it.
namespace LoadPacing.JsonText

section Meaning

-- What may stand for a field.
inductive Literal where
  | null
  | number (n : Decimal)

def Literal.text : Literal → List Char
  | .null => wordNull
  | .number n => n.text

inductive Content where
  | nothing
  | number (x : Binary64)
  | duration (d : Nanos)

def Field.content : Field → Settings → Content
  | .initialRate, s => .number s.initialRate
  | .targetLoad, s => .number s.targetLoad
  | .cooldown, s => .duration s.cooldown
  | .lowerBound, s => .number s.lowerBound
  | .upperBound, s => .number s.upperBound
  | .maxBurst, s => .number s.maxBurst
  | .acquireTimeout, s => s.acquireTimeout.elim .nothing .duration

-- A literal as a field takes it, numbers read by this conversion. What it does not take means nothing to it.
inductive Field.Means (conv : Conversion) : Field → Literal → Content → Prop where
  | number (plain : field ∈ [initialRate,targetLoad,lowerBound,upperBound,maxBurst])
      (read : conv.value n.numeral = some x) : Means conv field (.number n) (.number x)
  | seconds (timed : field ∈ [cooldown,acquireTimeout]) (read : conv.value n.numeral = some x)
      (counts : Nanos.Counts x d) : Means conv field (.number n) (.duration d)
  | null : Means conv acquireTimeout .null .nothing

-- Each named field has the value given for it, each other one its default.
structure Given (conv : Conversion) (members : List (Field × Literal)) (s : Settings) : Prop where
  named : ∀ m ∈ members, m.1.Means conv m.2 (m.1.content s)
  others : ∀ field, field ∉ members.map Prod.fst → field.content s = field.content .default

variable {conv : Conversion} {field : Field} {literal : Literal} {content other : Content} {s t : Settings}
  {members done order : List (Field × Literal)}

theorem settings_eq (same : ∀ field : Field, field.content s = field.content t) : s = t := by
  have rate := same .initialRate
  have target := same .targetLoad
  have cooldown := same .cooldown
  have lower := same .lowerBound
  have upper := same .upperBound
  have burst := same .maxBurst
  have timeout := same .acquireTimeout
  obtain ⟨_,_,_,_,_,_,one⟩ := s
  obtain ⟨_,_,_,_,_,_,two⟩ := t
  cases rate
  cases target
  cases cooldown
  cases lower
  cases upper
  cases burst
  cases one <;> cases two <;> cases timeout <;> rfl

theorem Field.Means.unique (one : field.Means conv literal content) (two : field.Means conv literal other) :
    content = other := by
  cases one with
  | number plain read =>
    cases two with
    | number _ again => rw [Option.some.inj (read.symm.trans again)]
    | seconds timed => exact absurd timed (by revert plain; cases field <;> decide)
  | seconds timed read counts =>
    cases two with
    | number plain => exact absurd timed (by revert plain; cases field <;> decide)
    | seconds _ again twice => rw [counts.nearest,twice.nearest,Option.some.inj (read.symm.trans again)]
  | null =>
    cases two with
    | null => rfl

theorem Field.means_correct (correct : conv.Correct) (n : Decimal) :
    field.Means conv (.number n) content ↔ ∃ x, n.Denotes x ∧
      (field ∈ [initialRate,targetLoad,lowerBound,upperBound,maxBurst] ∧ content = .number x ∨
        field ∈ [cooldown,acquireTimeout] ∧ ∃ d, Nanos.Counts x d ∧ content = .duration d) := by
  constructor
  · intro means
    cases means with
    | number plain read => exact ⟨_,(correct n _).mp read,.inl ⟨plain,rfl⟩⟩
    | seconds timed read counts => exact ⟨_,(correct n _).mp read,.inr ⟨timed,_,counts,rfl⟩⟩
  · rintro ⟨x,denotes,⟨plain,rfl⟩ | ⟨timed,d,counts,rfl⟩⟩
    · exact .number plain ((correct n x).mpr denotes)
    · exact .seconds timed ((correct n x).mpr denotes) counts

theorem Given.unique (one : Given conv members s) (two : Given conv members t) : s = t := by
  refine settings_eq fun field => ?_
  by_cases named : field ∈ members.map Prod.fst
  · obtain ⟨m,member,rfl⟩ := List.mem_map.mp named
    exact (one.named m member).unique (two.named m member)
  · rw [one.others field named,two.others field named]

theorem Given.perm (given : Given conv members s) (same : order.Perm members) : Given conv order s where
  named := fun m member => given.named m (same.mem_iff.mp member)
  others := fun field absent => given.others field fun named => absent ((same.map Prod.fst).mem_iff.mpr named)

theorem given_none : Given conv [] .default where
  named := nofun
  others := fun _ _ => rfl

end Meaning

section Fields

variable {conv : Conversion} {field other : Field} {literal : Literal} {content : Content} {s : Settings}
  {blank rest : List Char}

def Field.put : Field → Content → Settings → Settings
  | .initialRate, .number x, s => { s with initialRate := x }
  | .targetLoad, .number x, s => { s with targetLoad := x }
  | .cooldown, .duration d, s => { s with cooldown := d }
  | .lowerBound, .number x, s => { s with lowerBound := x }
  | .upperBound, .number x, s => { s with upperBound := x }
  | .maxBurst, .number x, s => { s with maxBurst := x }
  | .acquireTimeout, .nothing, s => { s with acquireTimeout := none }
  | .acquireTimeout, .duration d, s => { s with acquireTimeout := some d }
  | _, _, s => s

theorem Field.Means.put (means : field.Means conv literal content) (s : Settings) :
    field.content (field.put content s) = content := by
  cases means with
  | number plain => cases field <;> first | rfl | exact absurd plain (by decide)
  | seconds timed => cases field <;> first | rfl | exact absurd timed (by decide)
  | null => rfl

theorem Field.put_other (apart : other ≠ field) (content : Content) (s : Settings) :
    other.content (field.put content s) = other.content s := by
  cases field <;> cases content <;> cases other <;> first | rfl | exact absurd rfl apart

theorem readNumber_value {n : Decimal} {x : Binary64} (read : conv.value n.numeral = some x) (blanks : Blanks blank)
    (ends : Follows closers rest) : readNumber conv (blank ++ n.text ++ rest) = .ok (x,rest) := by
  rw [readNumber_text conv n blanks ends,read]

theorem Field.Means.read (means : field.Means conv literal content) (s : Settings) (blanks : Blanks blank)
    (ends : Follows closers rest) :
    field.read conv s (blank ++ literal.text ++ rest) = .ok (field.put content s,rest) := by
  cases means with
  | number plain read =>
    have number := readNumber_value read blanks ends
    cases field <;> first | exact congrArg (store _) number | exact absurd plain (by decide)
  | seconds timed read counts =>
    have alike := readAlike_number _ read blanks ends s
    rw [((Nanos.ofSeconds_told (conv.finite read)).1 _).mpr counts] at alike
    cases field <;> first | exact alike.cooldown | exact alike.timeout | exact absurd timed (by decide)
  | null => exact (read_shown conv .null blanks rest s).2

end Fields

section Members

variable {conv : Conversion} {members done later order : List (Field × Literal)} {m : Field × Literal}
  {content : Content} {s : Settings} {first : Bool} {blank lead text rest key chars : List Char}

theorem Given.next (given : Given conv done s) (fresh : m.1 ∉ done.map Prod.fst)
    (means : m.1.Means conv m.2 content) :
    Given conv (done ++ [m]) (m.1.put content s) where
  named := by
    intro other member
    rcases List.mem_append.mp member with old | new
    · have apart : other.1 ≠ m.1 := fun same => fresh (same ▸ List.mem_map_of_mem old)
      rw [Field.put_other apart]
      exact given.named other old
    · rw [List.mem_singleton.mp new,means.put]
      exact means
  others := by
    intro other absent
    rw [List.map_append,List.mem_append,not_or] at absent
    have apart : other ≠ m.1 := fun same => absent.2 (List.mem_singleton.mpr same)
    rw [Field.put_other apart]
    exact given.others other absent.1

theorem fresh_of_distinct (distinct : ((done ++ m :: later).map Prod.fst).Nodup) : m.1 ∉ done.map Prod.fst := by
  rw [List.map_append,List.map_cons] at distinct
  exact fun member => (List.nodup_append.mp distinct).2.2 _ member _ List.mem_cons_self rfl

theorem given_some (distinct : (members.map Prod.fst).Nodup)
    (accepted : ∀ m ∈ members, ∃ content, m.1.Means conv m.2 content) : ∃ s, Given conv members s := by
  induction members using List.reverseRecOn with
  | nil => exact ⟨.default,given_none⟩
  | append_singleton done m ih =>
    have before : (done.map Prod.fst).Nodup := by
      rw [List.map_append] at distinct
      exact (List.nodup_append.mp distinct).1
    obtain ⟨s,given⟩ := ih before fun m member => accepted m (List.mem_append_left _ member)
    obtain ⟨content,means⟩ := accepted m (List.mem_append_right _ List.mem_cons_self)
    exact ⟨_,given.next (fresh_of_distinct distinct) means⟩

-- How far the reading of an object has come, told from the members that are still to be read.
def Partway (conv : Conversion) (members later : List (Field × Literal)) (state : Settings × List Field) : Prop :=
  ∃ done, members = done ++ later ∧ Given conv done state.1 ∧ state.2 = (done.map Prod.fst).reverse

def Named (m : Field × Literal) (text : List Char) : Prop :=
  ∃ key, Spelled key m.1.key.toList ∧ Paired key m.2.text text

theorem ofKey_key (field : Field) : Field.ofKey field.key.toList = some field := by
  cases field <;> decide

theorem named_takes {state : Settings × List Field} (written : Named m text) (fresh : m.1 ∉ state.2)
    (means : m.1.Means conv m.2 content) :
    Takes (settingsMember conv) state text (m.1.put content state.1,m.1 :: state.2) := by
  obtain ⟨key,spelled,before,after,blanks,others,rfl⟩ := written
  refine ⟨key,_,before ++ ':' :: after ++ m.2.text,by simp,spelled,fun rest ends => ?_⟩
  have read := means.read state.1 others ends
  have behind := colon_skip blanks (after ++ m.2.text ++ rest)
  simp only [List.append_assoc,List.cons_append] at read behind ⊢
  unfold settingsMember
  rw [ofKey_key]
  dsimp only
  rw [if_neg fresh,behind]
  dsimp only
  rw [read]

theorem partway_named {state : Settings × List Field} (distinct : (members.map Prod.fst).Nodup)
    (accepted : ∀ m ∈ members, ∃ content, m.1.Means conv m.2 content)
    (partway : Partway conv members (m :: later) state) (written : Named m text) :
    ∃ next, Takes (settingsMember conv) state text next ∧ Partway conv members later next := by
  obtain ⟨done,rfl,given,seen⟩ := partway
  obtain ⟨content,means⟩ := accepted m (List.mem_append_right _ List.mem_cons_self)
  have fresh := fresh_of_distinct distinct
  have unseen : m.1 ∉ state.2 := by
    rw [seen,List.mem_reverse]
    exact fresh
  refine ⟨_,named_takes written unseen means,done ++ [m],by simp,given.next fresh means,?_⟩
  rw [List.map_append,List.reverse_append,seen]
  rfl

theorem object_row (distinct : (members.map Prod.fst).Nodup)
    (accepted : ∀ m ∈ members, ∃ content, m.1.Means conv m.2 content) (row : Row Named true members text)
    (follows : members ≠ [] → Follows closers rest) :
    ∃ state left, Given conv members state.1 ∧ state.2 = (members.map Prod.fst).reverse ∧
      readMembers (settingsMember conv) (.default,[]) (text ++ rest) =
        JsonText.members (settingsMember conv) (left + 1) members.isEmpty state rest := by
  have ready : Partway conv members members (.default,[]) := ⟨[],rfl,given_none,rfl⟩
  obtain ⟨state,left,⟨done,whole,given,seen⟩,same⟩ :=
    members_row row (fun _ _ _ _ => partway_named distinct accepted) ready follows le_rfl
  rw [List.append_nil] at whole
  subst whole
  exact ⟨state,left,given,seen,same⟩

end Members
end LoadPacing.JsonText
