import Mathlib.Data.List.Basic
import Mathlib.Data.List.TakeWhile
import ObjectLedger.Toml.Document

/-! # Plain values

A value is plain if it is an integer without sign, a truth value, or a text that needs no escapes.
At the end of a line a plain value is read as it is written (`takeValue?_written`). Digits alone are
neither a date, a time of day nor a floating-point number, and no numeral has a zero in front, so
they are read as an integer (`scalar?_decimal`). A text is taken up to its closing mark, which it
does not contain.
-/

namespace ObjectLedger.Toml

open Text

/-! ## Numbers -/

section Digits

variable {cs rest : List Char}

/-- Digits do not become anything else when some of them are taken as a number. -/
theorem digits_of_twoDigits? {low high value : Nat} (digits : ∀ c ∈ cs, c.isDigit)
    (taken : twoDigits? low high cs = some (value, rest)) : ∀ c ∈ rest, c.isDigit := by
  intro c member
  unfold twoDigits? at taken
  split at taken
  · dsimp only at taken
    split at taken
    · cases taken
      exact digits c (List.mem_cons_of_mem _ (List.mem_cons_of_mem _ member))
    · cases taken
  · cases taken

/-- No mark stands among digits. -/
theorem after?_of_digits {mark : Char} (other : mark.isDigit = false)
    (digits : ∀ c ∈ cs, c.isDigit) : after? mark cs = none := by
  unfold after?
  split
  · rename_i head rest
    exact if_neg (ne_of_class (digits head List.mem_cons_self) other)
  · rfl

/-- Digits alone are no date. -/
theorem afterDate?_of_digits (digits : ∀ c ∈ cs, c.isDigit) : afterDate? cs = none := by
  unfold afterDate?
  cases century : twoDigits? 0 99 cs with
  | none => rfl
  | some first =>
      have later := digits_of_twoDigits? digits century
      cases year : twoDigits? 0 99 first.2 with
      | none => simp only [Option.bind_eq_bind, Option.bind_some, year, Option.bind_none]
      | some second =>
          have dash : after? '-' second.2 = none :=
            after?_of_digits rfl (digits_of_twoDigits? later year)
          simp only [Option.bind_eq_bind, Option.bind_some, year, dash, Option.bind_none]

/-- Digits alone are no time of day. -/
theorem afterTime?_of_digits (digits : ∀ c ∈ cs, c.isDigit) : afterTime? cs = none := by
  unfold afterTime?
  cases hour : twoDigits? 0 23 cs with
  | none => rfl
  | some first =>
      have colon : after? ':' first.2 = none :=
        after?_of_digits rfl (digits_of_twoDigits? digits hour)
      simp only [Option.bind_eq_bind, Option.bind_some, colon, Option.bind_none]

/-- Digits have no sign before them. -/
theorem afterSign_of_digits (digits : ∀ c ∈ cs, c.isDigit) : afterSign cs = (false, cs) := by
  unfold afterSign
  split
  · cases digits _ List.mem_cons_self
  · cases digits _ List.mem_cons_self
  · rfl

/-- Digits alone have neither a point nor an exponent. -/
theorem isFloat_of_digits (digits : ∀ c ∈ cs, c.isDigit) : isFloat cs = false := by
  have words : ¬ (decide (cs = ['i', 'n', 'f']) || decide (cs = ['n', 'a', 'n'])) = true := by
    rw [Bool.or_eq_true, decide_eq_true_eq, decide_eq_true_eq]
    intro word
    rcases word with word | word
    · subst word
      cases digits 'i' List.mem_cons_self
    · subst word
      cases digits 'n' List.mem_cons_self
  have mantissa : ∀ c ∈ cs, (!(decide (c = 'e') || decide (c = 'E'))) = true := by
    intro c member
    rw [Bool.not_eq_true', Bool.or_eq_false_iff, decide_eq_false_iff_not, decide_eq_false_iff_not]
    exact ⟨ne_of_class (digits c member) rfl, ne_of_class (digits c member) rfl⟩
  have point : '.' ∉ cs := notMem_of_class digits rfl
  unfold isFloat
  rw [afterSign_of_digits digits]
  dsimp only
  rw [if_neg words, List.takeWhile_eq_self_iff.2 mantissa, List.dropWhile_eq_nil_iff.2 mantissa,
    cut?_of_notMem point]

/-- Digits without separators are read as they are. -/
theorem digits?_of_digits (nonempty : cs ≠ []) (digits : ∀ c ∈ cs, c.isDigit) :
    digits? Char.isDigit cs = some cs := by
  have mark : '_' ∉ cs := notMem_of_class digits rfl
  unfold digits?
  rw [fields_of_notMem mark]
  dsimp only
  rw [if_pos, List.flatten_singleton]
  rw [List.all_cons, List.all_nil, Bool.and_true, Bool.and_eq_true]
  refine ⟨?_, List.all_eq_true.2 digits⟩
  rw [Bool.not_eq_true', List.isEmpty_eq_false_iff]
  exact nonempty

end Digits

/-- The digits of a number are worth the number. -/
theorem ofDigits_decimal (n : Nat) : ofDigits 10 (decimal n) = n := by
  have read : Nat.ofDigitChars 10 (decimal n) 0 = n :=
    Nat.ofDigitChars_toDigits (by decide) (by decide)
  rw [Nat.ofDigitChars_eq_foldl] at read
  unfold ofDigits
  rw [List.foldl_ext _ _ 0 fun total c member => ?_]
  · exact read
  · unfold digitValue
    rw [if_pos (isDigit_of_mem_decimal member), Nat.mul_comm]
    rfl

/-- A numeral has no zero in front, so it is the whole part of a number. -/
theorem wholePart?_decimal (n : Nat) : wholePart? (decimal n) = some (decimal n) := by
  unfold wholePart?
  rw [digits?_of_digits (decimal_ne_nil n) fun c => isDigit_of_mem_decimal]
  split
  · rename_i same
    exact same.symm
  · rename_i rest longer same
    rw [Option.some.injEq] at same
    rw [decimal_zero_cons same] at longer
    exact (longer rfl).elim
  · rfl

/-- An integer is read back from its digits if a word holds it. -/
theorem integer?_decimal (n : Nat) : integer? (decimal n) = word? n := by
  have digits : ∀ c ∈ decimal n, c.isDigit := fun c => isDigit_of_mem_decimal
  have unmarked : ∀ mark rest, mark.isDigit = false → decimal n ≠ '0' :: mark :: rest := by
    intro mark rest other marked
    rw [marked] at digits
    rw [digits mark (List.mem_cons_of_mem _ List.mem_cons_self)] at other
    cases other
  unfold integer?
  split
  · rename_i rest marked
    exact (unmarked 'x' rest rfl marked).elim
  · rename_i rest marked
    exact (unmarked 'o' rest rfl marked).elim
  · rename_i rest marked
    exact (unmarked 'b' rest rfl marked).elim
  · rw [afterSign_of_digits digits]
    dsimp only
    rw [wholePart?_decimal, Option.bind_some, ofDigits_decimal]
    rfl

/-- A scalar made up of digits is read as an integer. -/
theorem scalar?_decimal (n : Nat) : scalar? (decimal n) = word? n := by
  have digits : ∀ c ∈ decimal n, c.isDigit := fun c => isDigit_of_mem_decimal
  have yes : decimal n ≠ "true".toList := fun word => by
    cases digits 't' (word ▸ List.mem_cons_self)
  have no : decimal n ≠ "false".toList := fun word => by
    cases digits 'f' (word ▸ List.mem_cons_self)
  have date : isDate (decimal n) = false := by
    unfold isDate
    rw [afterDate?_of_digits digits]
  have time : isTime (decimal n) = false := by
    unfold isTime
    rw [afterTime?_of_digits digits]
    rfl
  unfold scalar?
  rw [if_neg yes, if_neg no, date, time, isFloat_of_digits digits, integer?_decimal]
  rfl

/-! ## Values -/

/-- What a value is written as, if it is an integer without sign, a truth value or a text. -/
def Value.written : Value → List Char
  | .integer value => decimal value.toNat
  | .truth value => (toString value).toList
  | .text value => '\x22' :: (value.toList ++ ['\x22'])
  | .other => []

/-- A value is plain if it is an integer of a signed word without sign, a truth value, or a text
that is not empty and needs no escapes. -/
def Value.Plain : Value → Prop
  | .integer value => 0 ≤ value ∧ value ≤ Int64.maxValue.toInt
  | .truth _ => True
  | .text value => value ≠ "" ∧ ∀ c ∈ value.toList, isLineChar c ∧ c ≠ '\x22' ∧ c ≠ '\\'
  | .other => False

/-- A run of characters at the end of a line is a value of its own. -/
theorem takeValue?_run {run : List Char} (nonempty : run ≠ []) (each : ∀ c ∈ run, isRunChar c)
    (fuel depth : Nat) (rest : List Char) :
    takeValue? (fuel + 1) depth (run ++ '\n' :: rest) = (scalar? run).map (·, '\n' :: rest) := by
  have scalar : takeScalar? (run ++ '\n' :: rest) = (scalar? run).map (·, '\n' :: rest) := by
    unfold takeScalar?
    rw [List.takeWhile_append_of_pos each, List.dropWhile_append_of_pos each,
      List.takeWhile_cons_of_neg (by decide), List.dropWhile_cons_of_neg (by decide),
      List.append_nil]
    rfl
  cases run with
  | nil => exact (nonempty rfl).elim
  | cons first others =>
      have own := each first List.mem_cons_self
      rw [List.cons_append] at scalar ⊢
      unfold takeValue?
      split
      · rename_i quoted
        exact (cons_ne_of_class own rfl _ _ quoted).elim
      · rename_i quoted
        exact (cons_ne_of_class own rfl _ _ quoted).elim
      · rename_i array
        exact (cons_ne_of_class own rfl _ _ array).elim
      · rename_i table
        exact (cons_ne_of_class own rfl _ _ table).elim
      · exact scalar

/-- The characters of a plain text are taken up to the closing mark. -/
theorem body?_plain {text : List Char} (plain : ∀ c ∈ text, isLineChar c ∧ c ≠ '\x22' ∧ c ≠ '\\')
    (rest : List Char) {fuel : Nat} (enough : text.length < fuel) :
    body? ⟨'\x22', false, true⟩ fuel (text ++ '\x22' :: rest) = some (text, rest) := by
  induction text generalizing fuel with
  | nil =>
      cases fuel with
      | zero => cases enough
      | succ fuel => rfl
  | cons c others ih =>
      cases fuel with
      | zero => cases enough
      | succ fuel =>
          obtain ⟨inline, mark, escape⟩ := plain c List.mem_cons_self
          have later := ih (fun c member => plain c (List.mem_cons_of_mem _ member))
            (Nat.lt_of_succ_lt_succ enough)
          rw [List.cons_append, body?, if_neg mark, decide_eq_false escape, Bool.and_false,
            if_neg Bool.false_ne_true, if_pos inline, later]
          rfl

/-- A plain text between marks is a value of its own. -/
theorem takeText?_plain {text : List Char} (nonempty : text ≠ [])
    (plain : ∀ c ∈ text, isLineChar c ∧ c ≠ '\x22' ∧ c ≠ '\\') (rest : List Char) :
    takeText? '\x22' ('\x22' :: (text ++ '\x22' :: rest)) = some (String.ofList text, rest) := by
  have body : line? '\x22' (text ++ '\x22' :: rest) = some (String.ofList text, rest) := by
    have enough : text.length < (text ++ '\x22' :: rest).length + 1 := by
      rw [List.length_append]
      omega
    unfold line?
    rw [decide_eq_true rfl, body?_plain plain rest enough]
    rfl
  cases text with
  | nil => exact (nonempty rfl).elim
  | cons first others =>
      have mark := (plain first List.mem_cons_self).2.1
      rw [List.cons_append] at body ⊢
      cases behind : others ++ '\x22' :: rest with
      | nil => cases (List.append_eq_nil_iff.1 behind).2
      | cons second more =>
          rw [behind] at body
          unfold takeText?
          dsimp only
          rw [decide_eq_false mark, Bool.and_false, Bool.false_and, if_neg Bool.false_ne_true, body]

/-- A plain value at the end of a line is read as it is written. -/
theorem takeValue?_written {value : Value} (plain : value.Plain) (fuel depth : Nat)
    (rest : List Char) :
    takeValue? (fuel + 1) depth (value.written ++ '\n' :: rest) = some (value, '\n' :: rest) := by
  cases value with
  | integer number =>
      have digits : ∀ c ∈ decimal number.toNat, isRunChar c := by
        intro c member
        unfold isRunChar Char.isAlphanum
        rw [isDigit_of_mem_decimal member, Bool.or_true]
        rfl
      have word : word? number = some (.integer number) := by
        have least : Int64.minValue.toInt ≤ 0 := by decide
        exact if_pos ⟨Int.le_trans least plain.1, plain.2⟩
      unfold Value.written
      rw [takeValue?_run (decimal_ne_nil _) digits, scalar?_decimal, Int.toNat_of_nonneg plain.1,
        word]
      rfl
  | truth holds =>
      cases holds with
      | true => exact takeValue?_run (by decide) (List.all_eq_true.1 rfl) fuel depth rest
      | false => exact takeValue?_run (by decide) (List.all_eq_true.1 rfl) fuel depth rest
  | text value =>
      obtain ⟨nonempty, plain⟩ := plain
      have characters : value.toList ≠ [] := fun none => nonempty (String.toList_inj.1 none)
      have taken := takeText?_plain characters plain ('\n' :: rest)
      rw [Value.written, List.cons_append, List.append_assoc, List.singleton_append]
      unfold takeValue?
      dsimp only
      rw [taken, Option.map_some, String.ofList_toList]
      cases depth with
      | zero => rfl
      | succ depth => rfl
  | other => exact plain.elim

end ObjectLedger.Toml
