import LoadPacing.Proofs.JsonText.Alone
import Mathlib.Data.List.Forall2

-- Of an object a form keeps the values at its keys, wherever the members stand and whichever others there are.
namespace LoadPacing.JsonText

variable {β σ : Type} {written key value row text blank before after rest chars : List Char}
  {members done extra order : List (List Char × List Char)} {m : List Char × List Char}

def spelt (key : List Char) : Except ReadError (List Char) := orMalformed ((string .plain (key ++ ['"'])).map Prod.fst)

-- What a member makes of a state, its key judged first.
def memberStep (member : σ → List Char → List Char → Read σ) (state : σ) (m : List Char × List Char) : Except ReadError σ :=
  match spelt m.1 with
  | .error error => .error error
  | .ok chars => told (member state chars) (':' :: m.2)

-- What is made of a member behind its key, wherever it stands.
def Behind (member : List Char → Read σ) (value : List Char) (made : Except ReadError σ) : Prop :=
  ∀ before after rest, Blanks before → Blanks after → Follows closers rest →
    member (before ++ ':' :: (after ++ value ++ rest)) = made.map fun next => (next,rest)

theorem Behind.told {member : List Char → Read σ} {made : Except ReadError σ} (behind : Behind member value made) :
    told member (':' :: value) = made := by
  have own := behind [] [] [] blanks_nil blanks_nil follows_nil
  rw [List.nil_append,List.nil_append,List.append_nil] at own
  unfold JsonText.told
  rw [own]
  exact told_map []

section Keys

theorem spelt_ok (raw : Raw key) : spelt key = .ok chars ↔ Spelled key chars := by
  unfold spelt
  constructor
  · intro read
    refine (raw_spelled raw).1 chars ?_
    cases got : (string .plain (key ++ ['"'])).map Prod.fst with
    | none => simp [got,orMalformed] at read
    | some told => simpa [got,orMalformed] using read
  · intro spelled
    rw [string_spelled spelled []]
    rfl

theorem Spelled.raw (spelled : Spelled key chars) : Raw key := by
  induction spelled with
  | nil => exact .nil
  | plain ordinary later ih => exact .plain ordinary ih
  | escape listed later ih => exact .escape listed ih
  | unit hex scalar later ih => exact .unit hex ih
  | pair first high second low later ih =>
    have both := Raw.unit first (Raw.unit second ih)
    simpa only [List.cons_append,List.append_assoc] using both

theorem Spelled.unique {others : List Char} (one : Spelled key chars) (two : Spelled key others) : chars = others := by
  have read := (string_spelled one []).symm.trans (string_spelled two [])
  exact congrArg Prod.fst (Option.some.inj read)

theorem nextKey_raw {first : Bool} {lead : List Char} (leads : Lead first lead) (raw : Raw key) (rest : List Char) :
    nextKey first (lead ++ '"' :: (key ++ '"' :: rest)) = (spelt key).map fun chars => .key chars rest := by
  unfold spelt
  rw [nextKey_lead leads,keyAt,(string_raw raw rest).1]
  cases string .plain (key ++ ['"']) <;> rfl

end Keys

section Objects
variable {member : σ → List Char → List Char → Read σ} {first : Bool}

theorem members_told (row : Row (fun m => Paired m.1 m.2) first members text) (keys : ∀ m ∈ members, Raw m.1)
    (each : ∀ m ∈ members, IsValue m.2)
    (behind : ∀ m ∈ members, ∀ state chars, ∃ made, Behind (member state chars) m.2 made) (after : Blanks blank) (state : σ)
    (rest : List Char) {fuel : Nat} (enough : (text ++ (blank ++ '\x7d' :: rest)).length ≤ fuel) :
    JsonText.members member (fuel + 1) first state (text ++ (blank ++ '\x7d' :: rest)) =
      (members.foldlM (memberStep member) state).map fun next => (next,rest) := by
  induction row generalizing fuel state with
  | nil =>
    rw [List.nil_append,JsonText.members,nextKey_closed _ after]
    rfl
  | @cons first lead m text members others leads item later ih =>
    obtain ⟨between,front,spaces,gaps,rfl⟩ := item
    obtain ⟨raw,raws⟩ := List.forall_mem_cons.mp keys
    obtain ⟨value_,values⟩ := List.forall_mem_cons.mp each
    obtain ⟨own,theirs⟩ := List.forall_mem_cons.mp behind
    have follows : Follows closers (others ++ (blank ++ '\x7d' :: rest)) :=
      later.follows (blanks_follow after (closer_follows (by decide) rest))
    simp only [List.length_append,List.length_cons] at enough
    obtain ⟨fuel,rfl⟩ : ∃ less, fuel = less + 1 := ⟨fuel - 1,by omega⟩
    have shorter : (others ++ (blank ++ '\x7d' :: rest)).length ≤ fuel := by
      simp only [List.length_append,List.length_cons]
      omega
    have begins := nextKey_raw leads raw (between ++ ':' :: (front ++ m.2 ++ (others ++ (blank ++ '\x7d' :: rest))))
    simp only [List.append_assoc,List.cons_append] at begins ⊢
    rw [JsonText.members,begins,List.foldlM_cons,memberStep]
    cases spelt m.1 with
    | error error => rfl
    | ok chars =>
      obtain ⟨made,behind⟩ := own state chars
      have step := behind between front _ spaces gaps follows
      simp only [List.append_assoc] at step
      dsimp only [Except.map]
      rw [step,behind.told]
      cases made with
      | error error => rfl
      | ok next => exact ih raws values theirs next shorter

theorem readMembers_braced (object : Braced members text) 
    (behind : ∀ m ∈ members, ∀ state chars, ∃ made, Behind (member state chars) m.2 made) (state : σ) (rest : List Char) :
    ∃ inside, text ++ rest = '\x7b' :: inside ∧
      readMembers member state inside = (members.foldlM (memberStep member) state).map fun next => (next,rest) := by
  obtain ⟨keys,each,row,blank,written,after,rfl⟩ := object
  refine ⟨row ++ (blank ++ '\x7d' :: rest),by simp,?_⟩
  exact members_told written keys each behind after state rest le_rfl

end Objects

section Forms
variable {read : List Char → Read β} {write : β → σ} {given : Bool}

theorem passMember_behind (state : σ) (value_ : IsValue value) : Behind (passMember state) value (.ok state) := by
  intro before after rest blanks others ends
  unfold passMember
  rw [colon_skip blanks]
  dsimp only
  rw [pass_value value_ others ends]
  rfl

-- A key that is there already is refused before its value is looked at.
theorem newMember_behind (key : String) (given : Bool) (write : β → σ) (alone : Alone read value) :
    Behind (newMember key given read write) value
      (if given then .error (.mismatch (.repeatedKey key)) else (told read value).map write) := by
  intro before after rest blanks others ends
  unfold newMember
  cases given with
  | true => rfl
  | false =>
    simp only [Bool.false_eq_true,if_false]
    rw [colon_skip blanks]
    dsimp only
    rw [alone after rest others ends]
    cases told read value <;> rfl

theorem memberStep_spelled {member : σ → List Char → List Char → Read σ} {state : σ} {made : Except ReadError σ}
    (spelled : Spelled m.1 chars) (behind : Behind (member state chars) m.2 made) : memberStep member state m = made := by
  unfold memberStep
  rw [(spelt_ok spelled.raw).mpr spelled]
  exact behind.told

theorem memberStep_key {member : σ → List Char → List Char → Read σ} {state next : σ} (raw : Raw m.1)
    (step : memberStep member state m = .ok next) : ∃ chars, Spelled m.1 chars := by
  unfold memberStep at step
  cases key : spelt m.1 with
  | error error => simp [key] at step
  | ok chars => exact ⟨chars,(spelt_ok raw).mp key⟩

theorem taken_once {key : String} {held : Option β} {read : Except ReadError β} {next : σ} :
    (if held.isSome then .error (.mismatch (.repeatedKey key)) else read.map write) = .ok next ↔
      held = none ∧ ∃ content, read = .ok content ∧ write content = next := by
  cases held with
  | some _ => simp
  | none => cases read <;> simp [Except.map]

theorem foldlM_snoc {α : Type} (step : σ → α → Except ReadError σ) (xs : List α) (x : α) (start last : σ) :
    (xs ++ [x]).foldlM step start = .ok last ↔ ∃ state, xs.foldlM step start = .ok state ∧ step state x = .ok last := by
  rw [List.foldlM_append]
  cases xs.foldlM step start with
  | error error => simp [bind,Except.bind]
  | ok state => cases next : step state x <;> simp [bind,Except.bind,pure,Except.pure,next]

variable {member : σ → List Char → List Char → Read σ} {made : σ → List Char → List Char → Except ReadError σ}
  {start state : σ} {Holds : List (List Char × List Char) → σ → Prop}

-- What the members hold together is left by reading them one by one, if each adds to it what it makes of the state.
theorem fold_holds (keys : ∀ m ∈ members, Raw m.1) (each : ∀ m ∈ members, IsValue m.2)
    (behind : ∀ state chars value, IsValue value → Behind (member state chars) value (made state chars value))
    (empty : ∀ state, Holds [] state ↔ start = state)
    (spelled : ∀ members state, Holds members state → ∀ m ∈ members, ∃ chars, Spelled m.1 chars)
    (next : ∀ done m chars state, Spelled m.1 chars → IsValue m.2 →
      (Holds (done ++ [m]) state ↔ ∃ prior, Holds done prior ∧ made prior chars m.2 = .ok state)) :
    members.foldlM (memberStep member) start = .ok state ↔ Holds members state := by
  induction members using List.reverseRecOn generalizing state with
  | nil =>
    rw [empty]
    exact ⟨Except.ok.inj,congrArg _⟩
  | append_singleton done m ih =>
    have before (state : σ) : done.foldlM (memberStep member) start = .ok state ↔ Holds done state :=
      ih (fun n member => keys n (List.mem_append_left _ member)) fun n member => each n (List.mem_append_left _ member)
    have last : m ∈ done ++ [m] := List.mem_append_right done (List.mem_singleton.mpr rfl)
    simp only [foldlM_snoc,before]
    by_cases key : ∃ chars, Spelled m.1 chars
    · obtain ⟨chars,own⟩ := key
      have step (prior : σ) := memberStep_spelled own (behind prior chars m.2 (each m last))
      simp only [step]
      exact (next done m chars state own (each m last)).symm
    · constructor
      · rintro ⟨prior,_,step⟩
        exact absurd (memberStep_key (keys m last) step) key
      · exact fun holds => absurd (spelled _ _ holds m last) key

end Forms

section Content
variable {key : String} {Means : List Char → β → Prop} {content : Option β}

-- What an object holds at a key: the meaning of the one value there, and nothing without it.
structure Held (key : String) (Means : List Char → β → Prop) (members : List (List Char × List Char)) (content : Option β) :
    Prop where
  once : members.Pairwise fun m other => ¬ (Spelled m.1 key.toList ∧ Spelled other.1 key.toList)
  given : ∀ m ∈ members, Spelled m.1 key.toList → ∃ x, content = some x ∧ Means m.2 x
  absent : (∀ m ∈ members, ¬ Spelled m.1 key.toList) → content = none

theorem held_none : Held key Means members none ↔ ∀ m ∈ members, ¬ Spelled m.1 key.toList := by
  constructor
  · intro held m member spelled
    obtain ⟨_,some_,_⟩ := held.given m member spelled
    cases some_
  · intro absent
    refine ⟨List.pairwise_of_forall_mem_list fun m member _ _ both => absent m member both.1,?_,fun _ => rfl⟩
    exact fun m member spelled => absurd spelled (absent m member)

theorem Held.perm (held : Held key Means members content) (same : order.Perm members) : Held key Means order content where
  once := (same.pairwise_iff fun apart both => apart both.symm).mpr held.once
  given := fun m member => held.given m (same.mem_iff.mp member)
  absent := fun absent => held.absent fun m member => absent m (same.mem_iff.mpr member)

theorem Held.beside (held : Held key Means members content) (others : ∀ m ∈ extra, ¬ Spelled m.1 key.toList) :
    Held key Means (members ++ extra) content where
  once := by
    have nothing : Held key Means extra none := held_none.mpr others
    refine List.pairwise_append.mpr ⟨held.once,nothing.once,?_⟩
    exact fun _ _ other member both => others other member both.2
  given := by
    intro m member spelled
    rcases List.mem_append.mp member with inside | beside
    · exact held.given m inside spelled
    · exact absurd spelled (others m beside)
  absent := fun absent => held.absent fun m member => absent m (List.mem_append_left extra member)

theorem mem_alike {α : Type} {Same : α → α → Prop} {xs ys : List α} (alike : List.Forall₂ Same xs ys) :
    ∀ y ∈ ys, ∃ x ∈ xs, Same x y := by
  induction alike with
  | nil => exact nofun
  | @cons x y xs ys same alike ih =>
    refine List.forall_mem_cons.mpr ⟨⟨x,List.mem_cons_self,same⟩,fun y member => ?_⟩
    obtain ⟨x,inside,same⟩ := ih y member
    exact ⟨x,List.mem_cons_of_mem _ inside,same⟩

theorem Held.revised (held : Held key Means members content)
    (alike : List.Forall₂ (fun m n => m.1 = n.1 ∧ ∀ x, Means m.2 x → Means n.2 x) members order) :
    Held key Means order content where
  once := by
    have keys : List.Forall₂ (· = ·) (members.map Prod.fst) (order.map Prod.fst) :=
      List.forall₂_map_left_iff.mpr (List.forall₂_map_right_iff.mpr (alike.imp fun _ _ same => same.1))
    rw [List.forall₂_eq_eq_eq] at keys
    have apart : (members.map Prod.fst).Pairwise fun one two => ¬ (Spelled one key.toList ∧ Spelled two key.toList) :=
      List.pairwise_map.mpr held.once
    rw [keys] at apart
    exact List.pairwise_map.mp apart
  given := by
    intro n member spelled
    obtain ⟨m,inside,same,kept⟩ := mem_alike alike n member
    obtain ⟨x,stored,means⟩ := held.given m inside (same ▸ spelled)
    exact ⟨x,stored,kept x means⟩
  absent := by
    intro absent
    refine held.absent fun m member spelled => ?_
    obtain ⟨n,inside,same,_⟩ := mem_alike alike.flip m member
    exact absent n inside (same ▸ spelled)

theorem held_other (other : ¬ Spelled m.1 key.toList) : Held key Means (done ++ [m]) content ↔ Held key Means done content := by
  constructor
  · intro held
    refine ⟨(List.pairwise_append.mp held.once).1,fun m member => held.given m (List.mem_append_left _ member),fun absent => ?_⟩
    refine held.absent fun n member => ?_
    rcases List.mem_append.mp member with before | last
    · exact absent n before
    · rwa [List.mem_singleton.mp last]
  · intro held
    refine held.beside fun n last => ?_
    rwa [List.mem_singleton.mp last]

theorem held_key (spelled : Spelled m.1 key.toList) :
    Held key Means (done ++ [m]) content ↔ Held key Means done none ∧ ∃ x, content = some x ∧ Means m.2 x := by
  have last : m ∈ done ++ [m] := List.mem_append_right done (List.mem_singleton.mpr rfl)
  constructor
  · intro held
    refine ⟨held_none.mpr fun n member again => ?_,held.given m last spelled⟩
    exact (List.pairwise_append.mp held.once).2.2 n member m (List.mem_singleton.mpr rfl) ⟨again,spelled⟩
  · rintro ⟨nothing,x,rfl,means⟩
    have before := held_none.mp nothing
    refine ⟨?_,?_,fun absent => absurd spelled (absent m last)⟩
    · refine List.pairwise_append.mpr ⟨nothing.once,List.pairwise_singleton _ m,?_⟩
      exact fun n member _ _ both => before n member both.1
    · intro n member again
      rcases List.mem_append.mp member with old | new
      · exact absurd again (before n old)
      · exact ⟨x,rfl,List.mem_singleton.mp new ▸ means⟩

theorem spelled_snoc (spelled : Spelled m.1 chars) :
    (∀ n ∈ done ++ [m], ∃ chars, Spelled n.1 chars) ↔ ∀ n ∈ done, ∃ chars, Spelled n.1 chars := by
  refine ⟨fun all n member => all n (List.mem_append_left _ member),fun all => List.forall_mem_append.mpr ⟨all,?_⟩⟩
  exact List.forall_mem_singleton.mpr ⟨chars,spelled⟩

end Content

section Others

def Unknown (known : List String) (m : List Char × List Char) : Prop :=
  ∃ chars, Spelled m.1 chars ∧ ∀ key ∈ known, chars ≠ key.toList

-- The members of an object in any order, with others inserted among them.
def Reworked (known : List String) (members order : List (List Char × List Char)) : Prop :=
  ∃ extra, (∀ m ∈ extra, Unknown known m) ∧ order.Perm (members ++ extra)

theorem Unknown.apart {known : List String} {key : String} (unknown : Unknown known m) (listed : key ∈ known) :
    ¬ Spelled m.1 key.toList := by
  obtain ⟨chars,spelled,other⟩ := unknown
  exact fun same => other key listed (spelled.unique same)

theorem Held.reworked {known : List String} {key : String} {Means : List Char → β → Prop} {content : Option β}
    (held : Held key Means members content) (listed : key ∈ known) (reworked : Reworked known members order) :
    Held key Means order content := by
  obtain ⟨extra,unknown,same⟩ := reworked
  exact (held.beside fun m member => (unknown m member).apart listed).perm same

theorem Reworked.spelled {known : List String} (reworked : Reworked known members order)
    (spelled : ∀ m ∈ members, ∃ chars, Spelled m.1 chars) : ∀ m ∈ order, ∃ chars, Spelled m.1 chars := by
  obtain ⟨extra,unknown,same⟩ := reworked
  intro m member
  rcases List.mem_append.mp (same.mem_iff.mp member) with old | new
  · exact spelled m old
  · obtain ⟨chars,own,_⟩ := unknown m new
    exact ⟨chars,own⟩

end Others

end LoadPacing.JsonText
