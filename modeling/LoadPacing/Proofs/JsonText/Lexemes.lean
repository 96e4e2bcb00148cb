import LoadPacing.JsonText.Reader
import LoadPacing.Proofs.JsonText.Grammar

-- Each lexeme is read to its last character and no further, and for what the grammar says that it stands for.
namespace LoadPacing.JsonText

variable {text rest run blank written chars code : List Char} {c : Char}

section Blanks

theorem isBlank_listed : isBlank c = true ↔ c ∈ [' ','\n','\t','\r'] := by
  simp [isBlank,or_assoc]

theorem blanks_nil : Blanks [] := nofun

theorem skipBlank_blanks (blanks : Blanks blank) : skipBlank (blank ++ text) = skipBlank text := by
  induction blank with
  | nil => rfl
  | cons c blank ih =>
    obtain ⟨first,later⟩ := List.forall_mem_cons.mp blanks
    have skipped : skipBlank (c :: blank ++ text) = skipBlank (blank ++ text) :=
      List.dropWhile_cons_of_pos (isBlank_listed.mpr first)
    exact skipped.trans (ih later)

theorem skipBlank_all (blanks : Blanks blank) : skipBlank blank = [] := by
  have skipped : skipBlank (blank ++ []) = skipBlank [] := skipBlank_blanks blanks
  rwa [List.append_nil] at skipped

theorem skipBlank_solid (solid : isBlank c = false) : skipBlank (c :: text) = c :: text :=
  List.dropWhile_cons_of_neg (by simp [solid])

theorem skipBlank_again (text : List Char) : skipBlank (skipBlank text) = skipBlank text := by
  induction text with
  | nil => rfl
  | cons c text ih =>
    cases solid : isBlank c with
    | true =>
      have skipped : skipBlank (c :: text) = skipBlank text := List.dropWhile_cons_of_pos solid
      rw [skipped,ih]
    | false => rw [skipBlank_solid solid,skipBlank_solid solid]

end Blanks

section Words

theorem behind_some {word : List Char} (found : behind word text = some rest) : text = word ++ rest := by
  induction word generalizing text with
  | nil =>
    have same : some text = some rest := by
      cases text <;> exact found
    exact Option.some.inj same
  | cons c word ih =>
    cases text with
    | nil => cases found
    | cons d text =>
      rw [behind] at found
      split at found
      · rename_i same
        rw [same,List.cons_append,ih found]
      · cases found

end Words

section Numerals

theorem Follows.false {allowed : List Char} {p : Char → Bool} (follows : Follows allowed rest)
    (none : allowed.any p = false) : ∀ c ∈ rest.head?, p c = false :=
  fun c member => Bool.eq_false_iff.mpr (List.any_eq_false.mp none c (follows c member))

theorem digits_run (spelled : Digits run) (stop : ∀ c ∈ rest.head?, c.isDigit = false) :
    digits (run ++ rest) = some (run,rest) := by
  have taken : rest.takeWhile Char.isDigit = [] ∧ rest.dropWhile Char.isDigit = rest := by
    cases rest with
    | nil => exact ⟨rfl,rfl⟩
    | cons c rest =>
      have other : ¬ c.isDigit = true := by simp [stop c rfl]
      exact ⟨List.takeWhile_cons_of_neg other,List.dropWhile_cons_of_neg other⟩
  obtain ⟨some_,each⟩ := spelled
  unfold digits
  rw [List.takeWhile_append_of_pos each,List.dropWhile_append_of_pos each,taken.1,taken.2,List.append_nil]
  cases run with
  | nil => exact absurd rfl some_
  | cons c run => rfl

theorem wholePart_run (spelled : Digits run) (unpadded : run.head? = some '0' → run = ['0'])
    (stop : ∀ c ∈ rest.head?, c.isDigit = false) : wholePart (run ++ rest) = some (run,rest) := by
  unfold wholePart
  rw [digits_run spelled stop]
  split
  · rename_i d more behind read
    cases read
    cases unpadded rfl
  · rfl

theorem exponentDigits_run (negative : Bool) (spelled : Digits run) (stop : ∀ c ∈ rest.head?, c.isDigit = false) :
    exponentDigits negative (run ++ rest) =
      some (if negative then -(digitsValue run : Int) else digitsValue run,rest) := by
  unfold exponentDigits
  rw [digits_run spelled stop]
  rfl

theorem worth_digitsValue (run : List Char) : worth run = digitsValue run := by
  unfold worth digitsValue
  rw [Nat.ofDigits_eq_foldr,List.map_reverse,List.foldr_reverse,List.foldl_map]
  congr 1
  funext n c
  exact Nat.add_comm _ _

theorem worth_append (front back : List Char) :
    worth (front ++ back) = worth front * 10 ^ back.length + worth back := by
  unfold worth
  rw [List.reverse_append,List.map_append,Nat.ofDigits_append,List.length_map,List.length_reverse,Nat.add_comm,
    Nat.mul_comm]

theorem digit_unlisted {others : List Char} (digit : c.isDigit = true) (none : others.any Char.isDigit = false) :
    c ∉ others :=
  fun member => List.any_eq_false.mp none c member digit

theorem Digits.head (spelled : Digits run) : ∃ c more, run = c :: more ∧ c.isDigit = true := by
  obtain ⟨some_,each⟩ := spelled
  cases run with
  | nil => exact absurd rfl some_
  | cons c more => exact ⟨c,more,rfl,each c List.mem_cons_self⟩

theorem exponentValue_unsigned (spelled : Digits run) : exponentValue (run ++ rest) = exponentDigits false (run ++ rest) := by
  obtain ⟨c,more,rfl,digit⟩ := spelled.head
  have unsigned : c ∉ ['+','-'] := digit_unlisted digit (by decide)
  simp only [List.mem_cons,List.not_mem_nil,or_false,not_or] at unsigned
  simp [exponentValue,unsigned]

theorem exponent_power (p : Power) (stop : ∀ c ∈ rest.head?, c.isDigit = false) :
    exponent (p.text ++ rest) = some (some p.exponent,rest) := by
  obtain ⟨capital,sign,run,spelled⟩ := p
  have value (text : List Char) :
      exponent ((if capital then 'E' else 'e') :: text) = (exponentValue text).map fun told => (some told.1,told.2) := by
    cases capital <;> rfl
  unfold Power.text
  rw [List.cons_append,value,Power.exponent,worth_digitsValue]
  cases sign with
  | none =>
    dsimp only
    rw [List.nil_append,exponentValue_unsigned spelled,exponentDigits_run false spelled stop]
    rfl
  | some minus =>
    cases minus with
    | false =>
      have read : exponentValue ('+' :: (run ++ rest)) = exponentDigits false (run ++ rest) := rfl
      dsimp only
      rw [if_neg (by decide),List.append_assoc,List.singleton_append,read,exponentDigits_run false spelled stop]
      rfl
    | true =>
      have read : exponentValue ('-' :: (run ++ rest)) = exponentDigits true (run ++ rest) := rfl
      dsimp only
      rw [if_pos rfl,List.append_assoc,List.singleton_append,read,exponentDigits_run true spelled stop]
      rfl

theorem fraction_point (n : Decimal) (stop : ∀ c ∈ rest.head?, c.isDigit = false) (plain : ∀ c ∈ rest.head?, c ≠ '.') :
    fraction (n.pointText ++ rest) = some (n.behindPoint,rest) := by
  unfold Decimal.pointText Decimal.behindPoint
  cases point : n.places with
  | some run => exact digits_run (n.placesSpelled run point) stop
  | none =>
    dsimp only
    rw [List.nil_append]
    cases rest with
    | nil => rfl
    | cons c rest => simp [fraction,plain c rfl]

theorem exponent_powerText (n : Decimal) (ends : Follows closers rest) :
    exponent (n.powerText ++ rest) = some (n.power.map Power.exponent,rest) := by
  unfold Decimal.powerText
  cases n.power with
  | some power => exact exponent_power power (ends.false (by decide))
  | none =>
    dsimp only
    rw [List.nil_append]
    cases rest with
    | nil => rfl
    | cons c rest =>
      have listed := ends c rfl
      have small : c ≠ 'e' := by
        rintro rfl
        exact absurd listed (by decide)
      have capital : c ≠ 'E' := by
        rintro rfl
        exact absurd listed (by decide)
      simp [exponent,small,capital]

def Decimal.numeral (n : Decimal) : Numeral :=
  ⟨n.negative,n.whole,n.behindPoint,n.power.map Power.exponent⟩

theorem Decimal.powerText_follows (n : Decimal) (ends : Follows closers rest) :
    Follows ('e' :: 'E' :: closers) (n.powerText ++ rest) := by
  unfold powerText
  cases n.power with
  | none => exact fun c member => List.mem_cons_of_mem _ (List.mem_cons_of_mem _ (ends c member))
  | some power =>
    intro c member
    have same : (if power.capital then 'E' else 'e') = c := Option.some.inj member
    rw [← same]
    cases power.capital <;> decide

theorem Decimal.pointText_follows (n : Decimal) {allowed : List Char} (ends : Follows allowed rest) :
    Follows ('.' :: allowed) (n.pointText ++ rest) := by
  unfold pointText
  cases n.places with
  | none => exact fun c member => List.mem_cons_of_mem _ (ends c member)
  | some run =>
    intro c member
    have same : '.' = c := Option.some.inj member
    rw [← same]
    exact List.mem_cons_self

theorem unsignedNumeral_text (n : Decimal) (ends : Follows closers rest) :
    unsignedNumeral n.negative (n.whole ++ (n.pointText ++ n.powerText) ++ rest) = some (n.numeral,rest) := by
  have power := n.powerText_follows ends
  have point := n.pointText_follows power
  have plain : ∀ c ∈ (n.powerText ++ rest).head?, c ≠ '.' := by
    intro c member
    rintro rfl
    exact absurd (power '.' member) (by decide)
  unfold unsignedNumeral
  rw [List.append_assoc,List.append_assoc,wholePart_run n.wholeSpelled n.unpadded (point.false (by decide))]
  simp only [Option.bind_eq_bind,Option.bind_some]
  rw [fraction_point n (power.false (by decide)) plain]
  simp only [Option.bind_some]
  rw [exponent_powerText n ends]
  rfl

theorem Decimal.text_head (n : Decimal) : ∃ c more, n.text = c :: more ∧ (c = '-' ∨ c.isDigit = true) := by
  obtain ⟨c,more,whole,digit⟩ := n.wholeSpelled.head
  unfold text
  cases n.negative with
  | true => exact ⟨'-',_,rfl,.inl rfl⟩
  | false => exact ⟨c,more ++ (n.pointText ++ n.powerText),by simp [whole],.inr digit⟩

theorem numeral_text (n : Decimal) (ends : Follows closers rest) : numeral (n.text ++ rest) = some (n.numeral,rest) := by
  have read := unsignedNumeral_text n ends
  unfold Decimal.text
  cases sign : n.negative with
  | true =>
    rw [sign] at read
    exact read
  | false =>
    rw [sign] at read
    obtain ⟨c,more,whole,digit⟩ := n.wholeSpelled.head
    rw [if_neg (by decide),List.nil_append]
    have unsigned : c ∉ ['-'] := digit_unlisted digit (by decide)
    rw [whole] at read ⊢
    simpa [numeral,List.mem_singleton.not.mp unsigned] using read

theorem Decimal.numeral_exact (n : Decimal) :
    n.exact = (if n.negative then -1 else 1) * ((n.numeral.coefficient : ℚ) * 10 ^ n.numeral.exponent) := by
  have tens : (10 : ℚ) ^ n.behindPoint.length ≠ 0 := pow_ne_zero _ (by norm_num)
  have coefficient : (n.numeral.coefficient : ℚ) =
      (worth n.whole + worth n.behindPoint / 10 ^ n.behindPoint.length) * 10 ^ n.behindPoint.length := by
    rw [numeral,Numeral.coefficient,← worth_digitsValue,worth_append]
    push_cast
    field_simp
  have power : (10 : ℚ) ^ n.numeral.exponent = 10 ^ n.exponent / 10 ^ n.behindPoint.length := by
    show (10 : ℚ) ^ (n.exponent - (n.behindPoint.length : Int)) = _
    rw [zpow_sub₀ (by norm_num),zpow_natCast]
  rw [exact,coefficient,power]
  field_simp

-- Rounds as the standard has it: the numbers that are read are those that stand for a double, and as that double.
def Conversion.Correct (conv : Conversion) : Prop := ∀ (n : Decimal) x, conv.value n.numeral = some x ↔ n.Denotes x

theorem Conversion.nearest_correct : nearest.Correct := by
  intro n x
  have rounds := Binary64.ofDecimal_rounds n.negative n.numeral.coefficient n.numeral.exponent
  have sign := Binary64.ofDecimal_sign n.negative n.numeral.coefficient n.numeral.exponent
  rw [← n.numeral_exact] at rounds
  unfold nearest
  constructor
  · intro read
    dsimp only at read
    split at read
    · rename_i finite
      cases read
      exact ⟨finite,sign,fun _ other => rounds.nearest finite other,rounds⟩
    · cases read
  · intro denotes
    have place := denotes.rounds.trans rounds.symm
    have same := Binary64.eq_of_place place denotes.finite (denotes.sign.trans sign.symm)
    have finite := denotes.finite
    rw [same] at finite ⊢
    exact if_pos finite

theorem startsNumeral_text (n : Decimal) (rest : List Char) : startsNumeral (n.text ++ rest) = true := by
  obtain ⟨c,more,text,starts⟩ := n.text_head
  rw [text,List.cons_append]
  rcases starts with rfl | digit
  · rfl
  · simp [startsNumeral,digit]

theorem skipBlank_numeral (starts : startsNumeral text = true) : skipBlank text = text := by
  cases text with
  | nil => rfl
  | cons c text =>
    refine skipBlank_solid (Bool.eq_false_iff.mpr fun blank => ?_)
    have listed := isBlank_listed.mp blank
    simp only [startsNumeral,Bool.or_eq_true,decide_eq_true_eq] at starts
    rcases starts with rfl | digit
    · exact absurd listed (by decide)
    · exact digit_unlisted digit (by decide) listed

theorem skipBlank_number (n : Decimal) (blanks : Blanks blank) (rest : List Char) :
    skipBlank (blank ++ n.text ++ rest) = n.text ++ rest := by
  rw [List.append_assoc,skipBlank_blanks blanks,skipBlank_numeral (startsNumeral_text n rest)]

theorem readNumber_text (conv : Conversion) (n : Decimal) (blanks : Blanks blank) (ends : Follows closers rest) :
    readNumber conv (blank ++ n.text ++ rest) =
      match conv.value n.numeral with
      | none => .error .malformed
      | some value => .ok (value,rest) := by
  have told := numeral_text n ends
  unfold readNumber
  dsimp only
  rw [skipBlank_number n blanks,if_pos (startsNumeral_text n rest)]
  cases value : conv.value n.numeral with
  | none => simp only [told,value]
  | some x => simp only [told,value]

end Numerals

section Strings
variable {v : Nat}

theorem spelled_ordinary (ordinary : ∀ c ∈ chars, Ordinary c) : Spelled chars chars := by
  induction chars with
  | nil => exact .nil
  | cons c chars ih =>
    obtain ⟨here,later⟩ := List.forall_mem_cons.mp ordinary
    exact .plain here (ih later)

theorem hexDigit_listed : ∀ entry ∈ hexDigits, hexDigit entry.1 = some entry.2 := by decide

theorem simpleEscape_listed : ∀ entry ∈ escapes, simpleEscape entry.1 = some entry.2 ∧ entry.1 ≠ 'u' := by decide

-- The digits of a unit are read before it is known what the unit completes.
theorem string_digit {c : Char} {d digits : Nat} (digit : hexDigit c = some d) (few : digits < 3) (high : Option Nat)
    (value : Nat) (text : List Char) :
    string (.unit high digits value) (c :: text) = string (.unit high (digits + 1) (value * 16 + d)) text := by
  simp [string,digit,few]

theorem string_last {c : Char} {d : Nat} (digit : hexDigit c = some d) (high : Option Nat) (value : Nat) (text : List Char) :
    string (.unit high 3 value) (c :: text) =
      match completeUnit high (value * 16 + d) with
      | none => none
      | some (.inl e) => consRead e (string .plain text)
      | some (.inr spelling) => string spelling text := by
  rw [string,digit]
  exact if_neg (Nat.lt_irrefl 3)

theorem string_unit (hex : Hex code v) (high : Option Nat) (text : List Char) :
    string (.unit high 0 0) (code ++ text) =
      match completeUnit high v with
      | none => none
      | some (.inl e) => consRead e (string .plain text)
      | some (.inr spelling) => string spelling text := by
  cases hex with
  | mk one two three four =>
    have first := hexDigit_listed _ one
    have second := hexDigit_listed _ two
    have third := hexDigit_listed _ three
    have last := hexDigit_listed _ four
    dsimp only at first second third last
    simp (disch := decide) only [List.cons_append,List.nil_append,string_digit first,string_digit second,string_digit third,
      Nat.zero_mul,Nat.zero_add,Nat.reduceAdd]
    exact string_last last high _ text

theorem string_spelled (spelled : Spelled written chars) (rest : List Char) :
    string .plain (written ++ '"' :: rest) = some (chars,rest) := by
  induction spelled with
  | nil => rfl
  | @plain c written chars ordinary later ih =>
    obtain ⟨unquoted,unescaped,visible⟩ := ordinary
    rw [List.cons_append,string,if_neg unquoted,if_neg unescaped,if_neg (by simpa using visible),ih]
    rfl
  | @escape e c written chars listed later ih =>
    obtain ⟨simple,long⟩ := simpleEscape_listed _ listed
    dsimp only at simple long
    rw [List.cons_append,List.cons_append,string,if_neg (by decide),if_pos rfl,string,if_neg long,simple]
    dsimp only
    rw [ih]
    rfl
  | @unit code v written chars hex scalar later ih =>
    have complete : completeUnit none v = some (.inl (Char.ofNat v)) := by
      unfold completeUnit
      dsimp only
      rw [if_neg (by omega),if_neg (by omega)]
    simp only [List.cons_append,List.append_assoc]
    rw [string,if_neg (by decide),if_pos rfl,string,if_pos rfl,string_unit hex,complete]
    dsimp only
    rw [ih]
    rfl
  | @pair code v code' w written chars first high second low later ih =>
    have open_ : completeUnit none v = some (.inr (.lowEscape v)) := by
      unfold completeUnit
      dsimp only
      rw [if_pos high]
    have complete : completeUnit (some v) w =
        some (.inl (Char.ofNat (0x10000 + (v - 0xD800) * 0x400 + (w - 0xDC00)))) := by
      unfold completeUnit
      dsimp only
      rw [if_pos low]
    simp only [List.cons_append,List.append_assoc]
    rw [string,if_neg (by decide),if_pos rfl,string,if_pos rfl,string_unit first,open_]
    dsimp only
    rw [string,if_pos rfl,string,if_pos rfl,string_unit second,complete]
    dsimp only
    rw [ih]
    rfl

end Strings
end LoadPacing.JsonText
