import LoadPacing.JsonText.SettingsForm
import LoadPacing.Proofs.JsonText.Lexemes

-- The two fields that hold a duration object to the same texts for the same reasons; only null is told apart.
namespace LoadPacing

theorem nearestEven_tie {q : ℚ} (positive : 0 ≤ q) (tie : |(nearestEven q : ℚ) - q| = 1 / 2) : nearestEven q % 2 = 0 := by
  have low := Nat.floor_le positive
  have high := Nat.lt_floor_add_one q
  unfold nearestEven at tie ⊢
  split at tie
  · rename_i below
    rw [abs_of_nonpos (by linarith)] at tie
    linarith
  · rename_i notBelow
    rw [if_neg notBelow]
    split at tie
    · rename_i above
      push_cast at tie
      rw [abs_of_nonneg (by linarith)] at tie
      linarith
    · rename_i notAbove
      rw [if_neg notAbove]
      omega

theorem Nanos.ofSeconds_negative {x : Binary64} (finite : x.IsFinite) (below : x.value < 0) :
    Nanos.ofSeconds x = .error .negative := by
  obtain ⟨negative,units,onGrid,rfl⟩ := Binary64.finite_form finite
  have unit := Binary64.perOne_value
  have sign : negative = true ∧ units ≠ 0 := by
    cases negative with
    | false =>
      have least : (0 : ℚ) ≤ (Binary64.finite false units onGrid).value := by
        simp only [Binary64.value,Binary64.signed,Bool.false_eq_true,if_false]
        positivity
      exact absurd least (not_le_of_gt below)
    | true =>
      refine ⟨rfl,?_⟩
      rintro rfl
      simp [Binary64.value,Binary64.signed] at below
  exact if_pos sign

-- The duration that a double of seconds comes to: its value to the nearest nanosecond, if durations go so far.
structure Nanos.Counts (x : Binary64) (d : Nanos) : Prop where
  least : 0 ≤ x.value
  nearest : d = nearestEven (x.value * 10 ^ 9)
  inside : d < 2 ^ 64 * 10 ^ 9

theorem Nanos.limit_seconds : secondsLimit * perSecond = 2 ^ 64 * 10 ^ 9 := rfl

theorem Nanos.ofSeconds_told {x : Binary64} (finite : x.IsFinite) :
    (∀ d, Nanos.ofSeconds x = .ok d ↔ Counts x d) ∧
    (Nanos.ofSeconds x = .error .negative ↔ x.value < 0) ∧
    (Nanos.ofSeconds x = .error .tooLargeOrNaN ↔ 0 ≤ x.value ∧ 2 ^ 64 * 10 ^ 9 ≤ nearestEven (x.value * 10 ^ 9)) := by
  rcases lt_or_ge x.value 0 with below | least
  · rw [ofSeconds_negative finite below]
    refine ⟨fun d => iff_of_false nofun ?_,iff_of_true rfl below,iff_of_false nofun ?_⟩
    · exact fun counts => absurd counts.least (not_le_of_gt below)
    · exact fun large => absurd large.1 (not_le_of_gt below)
  · rw [ofSeconds_nearest finite least,limit_seconds]
    rcases Nat.lt_or_ge (nearestEven (x.value * 10 ^ 9)) (2 ^ 64 * 10 ^ 9) with inside | beyond
    · rw [if_pos inside]
      refine ⟨?_,iff_of_false nofun (not_lt.mpr least),iff_of_false nofun ?_⟩
      · intro d
        constructor
        · intro same
          cases same
          exact ⟨least,rfl,inside⟩
        · rintro ⟨_,rfl,_⟩
          rfl
      · exact fun large => absurd large.2 (Nat.not_le.mpr inside)
    · rw [if_neg (Nat.not_lt.mpr beyond)]
      refine ⟨fun d => iff_of_false nofun ?_,iff_of_false nofun (not_lt.mpr least),iff_of_true rfl ⟨least,beyond⟩⟩
      rintro ⟨_,rfl,inside⟩
      exact absurd inside (Nat.not_lt.mpr beyond)

theorem Nanos.Counts.mono {x y : Binary64} {d e : Nanos} (one : Counts x d) (two : Counts y e)
    (most : x.value ≤ y.value) : d ≤ e := by
  have least := one.least
  rw [one.nearest,two.nearest]
  exact nearestEven_mono (by positivity) (mul_le_mul_of_nonneg_right most (by positivity))

namespace JsonText

variable {conv : Conversion} {blank rest text : List Char} {s : Settings} {x y : Binary64}

-- Both fields come to the same, the one as it is and the other as some duration.
structure ReadAlike (conv : Conversion) (s : Settings) (text rest : List Char) (outcome : Except ReadError Nanos) :
    Prop where
  cooldown : Field.cooldown.read conv s text = outcome.map fun nanos => ({ s with cooldown := nanos },rest)
  timeout : Field.acquireTimeout.read conv s text = outcome.map fun nanos => ({ s with acquireTimeout := some nanos },rest)

theorem store_map {β : Type} (write : β → Settings) (read : Read β) :
    store write read = read.map fun told => (write told.1,told.2) := by
  cases read <;> rfl

theorem readSeconds_skip (conv : Conversion) (text : List Char) : readSeconds conv (skipBlank text) = readSeconds conv text := by
  unfold readSeconds readNumber
  rw [skipBlank_again]

theorem readOptionalSeconds_some (other : ∀ tail, skipBlank text ≠ wordNull ++ tail) :
    readOptionalSeconds conv text = (readSeconds conv text).map fun told => (some told.1,told.2) := by
  rw [← readSeconds_skip]
  unfold readOptionalSeconds
  split
  · rename_i tail begins
    have absent : behind ['u','l','l'] tail = none := by
      cases told : behind ['u','l','l'] tail with
      | none => rfl
      | some rest =>
        rw [behind_some told] at begins
        exact absurd begins (other rest)
    have malformed : readSeconds conv ('n' :: tail) = .error .malformed := by
      unfold readSeconds readNumber wrongType
      simp [skipBlank_solid,isBlank,startsNumeral,found,absent]
    rw [begins,absent,malformed]
    rfl
  · cases readSeconds conv (skipBlank text) <;> rfl

theorem readAlike_seconds {outcome : Except ReadError Nanos} (other : ∀ tail, skipBlank text ≠ wordNull ++ tail)
    (read : readSeconds conv text = outcome.map fun nanos => (nanos,rest)) : ReadAlike conv s text rest outcome := by
  refine ⟨?_,?_⟩
  · unfold Field.read
    dsimp only
    rw [store_map,read]
    cases outcome <;> rfl
  · unfold Field.read
    dsimp only
    rw [store_map,readOptionalSeconds_some other,read]
    cases outcome <;> rfl

theorem readAlike_other (conv : Conversion) (s : Settings) (other : ∀ tail, skipBlank text ≠ wordNull ++ tail) :
    ∃ outcome rest, ReadAlike conv s text rest outcome := by
  cases read : readSeconds conv text with
  | error error => exact ⟨.error error,[],readAlike_seconds other read⟩
  | ok told => exact ⟨.ok told.1,told.2,readAlike_seconds other read⟩

theorem number_not_null (n : Decimal) (blanks : Blanks blank) (tail : List Char) :
    skipBlank (blank ++ n.text ++ rest) ≠ wordNull ++ tail := by
  rw [skipBlank_number n blanks]
  intro same
  have starts := startsNumeral_text n rest
  rw [same] at starts
  cases starts

theorem readAlike_number (n : Decimal) (read : conv.value n.numeral = some x) (blanks : Blanks blank)
    (ends : Follows closers rest) (s : Settings) :
    ReadAlike conv s (blank ++ n.text ++ rest) rest
      (match Nanos.ofSeconds x with
        | .error fault => .error (.mismatch (.conversion fault))
        | .ok nanos => .ok nanos) := by
  refine readAlike_seconds (number_not_null n blanks) ?_
  unfold readSeconds
  rw [readNumber_text conv n blanks ends,read]
  dsimp only
  cases Nanos.ofSeconds x <;> rfl

theorem ReadAlike.unique {one two : Except ReadError Nanos} (first : ReadAlike conv s text rest one)
    (second : ReadAlike conv s text rest two) : one = two := by
  have same := first.timeout.symm.trans second.timeout
  cases one with
  | error error =>
    cases two with
    | error other => exact congrArg Except.error (Except.error.inj same)
    | ok other => cases same
  | ok nanos =>
    cases two with
    | error other => cases same
    | ok other =>
      have settings := congrArg (fun told : Settings × List Char => told.1.acquireTimeout) (Except.ok.inj same)
      exact congrArg Except.ok (Option.some.inj settings)

-- Values of other types, and what is said of them. Lists and objects are not looked into.
inductive Shown : List Char → Found → Prop where
  | null : Shown wordNull .null
  | true_ : Shown wordTrue (.boolean true)
  | false_ : Shown wordFalse (.boolean false)
  | string (spelled : Spelled written chars) : Shown ('"' :: written ++ ['"']) (.string chars)
  | list (inner : List Char) : Shown ('[' :: inner) .sequence
  | object (inner : List Char) : Shown ('\x7b' :: inner) .map

theorem Shown.named (conv : Conversion) {value : List Char} {found : Found} (shown : Shown value found)
    (rest : List Char) :
    JsonText.found conv (value ++ rest) = some found := by
  cases shown with
  | null | true_ | false_ | list | object => rfl
  | @string written chars spelled =>
    have read := string_spelled spelled rest
    rw [List.cons_append,List.cons_append,List.append_assoc,List.singleton_append,JsonText.found,read]
    rfl

theorem Shown.starts {value : List Char} {found : Found} (shown : Shown value found) (rest : List Char) :
    ∃ c later, value ++ rest = c :: later ∧ isBlank c = false ∧ startsNumeral (c :: later) = false := by
  cases shown <;> exact ⟨_,_,rfl,rfl,rfl⟩

theorem readSeconds_shown (conv : Conversion) {value : List Char} {found : Found} (shown : Shown value found)
    (blanks : Blanks blank) (rest : List Char) :
    readSeconds conv (blank ++ value ++ rest) = .error (.mismatch (.wrongType found .number)) := by
  have named := shown.named conv rest
  obtain ⟨c,later,begins,solid,other⟩ := shown.starts rest
  rw [begins] at named
  unfold readSeconds readNumber wrongType
  rw [List.append_assoc,skipBlank_blanks blanks,begins,skipBlank_solid solid]
  simp only [other,named,Bool.false_eq_true,if_false]

theorem readOptionalSeconds_null (conv : Conversion) (blanks : Blanks blank) (rest : List Char) :
    readOptionalSeconds conv (blank ++ wordNull ++ rest) = .ok (none,rest) := by
  unfold readOptionalSeconds
  rw [List.append_assoc,skipBlank_blanks blanks,show wordNull ++ rest = 'n' :: 'u' :: 'l' :: 'l' :: rest from rfl,
    skipBlank_solid rfl]
  rfl

theorem read_shown (conv : Conversion) {value : List Char} {found : Found} (shown : Shown value found)
    (blanks : Blanks blank) (rest : List Char) (s : Settings) :
    Field.cooldown.read conv s (blank ++ value ++ rest) = .error (.mismatch (.wrongType found .number)) ∧
    Field.acquireTimeout.read conv s (blank ++ value ++ rest) =
      if found = .null then .ok ({ s with acquireTimeout := none },rest)
      else .error (.mismatch (.wrongType found .number)) := by
  have seconds := readSeconds_shown conv shown blanks rest
  by_cases null : found = .null
  · have word : value = wordNull := by cases shown <;> first | rfl | cases null
    subst word
    rw [if_pos null]
    unfold Field.read
    rw [seconds,readOptionalSeconds_null conv blanks]
    exact ⟨rfl,rfl⟩
  · have other : ∀ tail, skipBlank (blank ++ value ++ rest) ≠ wordNull ++ tail := by
      intro tail same
      have named := shown.named conv rest
      obtain ⟨c,later,begins,solid,_⟩ := shown.starts rest
      rw [List.append_assoc,skipBlank_blanks blanks,begins,skipBlank_solid solid] at same
      rw [begins,same] at named
      exact null (Option.some.inj named).symm
    have alike : ReadAlike conv s (blank ++ value ++ rest) rest (.error (.mismatch (.wrongType found .number))) :=
      readAlike_seconds other seconds
    rw [if_neg null]
    exact ⟨alike.cooldown,alike.timeout⟩

-- Whichever double a number is read as, both fields give its nearest nanoseconds or object alike.
theorem durations_alike (n : Decimal) (read : conv.value n.numeral = some x) (blanks : Blanks blank)
    (ends : Follows closers rest) (s : Settings) :
    let text := blank ++ n.text ++ rest
    (∀ d, ReadAlike conv s text rest (.ok d) ↔ Nanos.Counts x d) ∧
    (ReadAlike conv s text rest (.error (.mismatch (.conversion .negative))) ↔ x.value < 0) ∧
    (ReadAlike conv s text rest (.error (.mismatch (.conversion .tooLargeOrNaN))) ↔
      0 ≤ x.value ∧ 2 ^ 64 * 10 ^ 9 ≤ nearestEven (x.value * 10 ^ 9)) ∧
    (∀ d, Nanos.Counts x d →
      |(d : ℚ) - x.value * 10 ^ 9| ≤ 1 / 2 ∧ (|(d : ℚ) - x.value * 10 ^ 9| = 1 / 2 → d % 2 = 0) ∧
      ∀ y e, x.value ≤ y.value → Nanos.Counts y e → d ≤ e) ∧
    (∀ value found, Shown value found →
      Field.cooldown.read conv s (blank ++ value ++ rest) = .error (.mismatch (.wrongType found .number)) ∧
      Field.acquireTimeout.read conv s (blank ++ value ++ rest) =
        if found = .null then .ok ({ s with acquireTimeout := none },rest)
        else .error (.mismatch (.wrongType found .number))) ∧
    ∀ other, (∀ tail, skipBlank other ≠ wordNull ++ tail) → ∃ outcome later, ReadAlike conv s other later outcome := by
  intro text
  have number := readAlike_number n read blanks ends s
  have told : ∀ outcome, ReadAlike conv s text rest outcome ↔ outcome = match Nanos.ofSeconds x with
      | .error fault => .error (.mismatch (.conversion fault))
      | .ok nanos => .ok nanos :=
    fun outcome => ⟨fun alike => alike.unique number,fun same => same ▸ number⟩
  obtain ⟨counts,negative,large⟩ := Nanos.ofSeconds_told (conv.finite read)
  refine ⟨?_,?_,?_,?_,?_,fun other apart => readAlike_other conv s apart⟩
  · intro d
    rw [told,← counts d]
    cases Nanos.ofSeconds x <;> simp [eq_comm]
  · rw [told,← negative]
    cases Nanos.ofSeconds x <;> simp [eq_comm]
  · rw [told,← large]
    cases Nanos.ofSeconds x <;> simp [eq_comm]
  · intro d counted
    have least := counted.least
    obtain ⟨low,high⟩ := nearestEven_near (by positivity : 0 ≤ x.value * 10 ^ 9)
    refine ⟨?_,?_,fun y e most later => counted.mono later most⟩
    · rw [counted.nearest]
      exact abs_le.mpr ⟨by linarith,by linarith⟩
    · rw [counted.nearest]
      exact nearestEven_tie (by positivity)
  · exact fun value found shown => read_shown conv shown blanks rest s

theorem durations_alike_tie :
    let n : Decimal := ⟨false,['9'],some ['7','6','5','6','2','5'],some ⟨true,some true,['4'],by decide⟩,by decide,nofun,
      fun _ same => by cases same; decide⟩
    let x : Binary64 := 1 / 1024
    n.text = "9.765625E-4".toList ∧ Conversion.nearest.value n.numeral = some x ∧ Blanks [' '] ∧
      Follows closers ['\x7d'] ∧
      ReadAlike .nearest .default ([' '] ++ n.text ++ ['\x7d']) ['\x7d'] (.ok 976562) := by
  intro n x
  have read : Conversion.nearest.value n.numeral = some x := by decide +kernel
  have blanks : Blanks [' '] := by decide
  have ends : Follows closers ['\x7d'] := by decide
  have counts : Nanos.Counts x 976562 :=
    ((Nanos.ofSeconds_told (Conversion.nearest.finite read)).1 _).mp (by decide +kernel)
  exact ⟨by decide,read,blanks,ends,((durations_alike n read blanks ends .default).1 976562).mpr counts⟩

end JsonText
end LoadPacing
