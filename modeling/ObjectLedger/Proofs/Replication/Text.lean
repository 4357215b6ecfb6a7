import ObjectLedger.Replication.Text

/-! # Replications are read as they are written

The text of a replication is made of lower-case letters and digits, and of the dashes and slashes
between them. So reading takes nothing away from it and changes no letter
(`Replication.normal_text`), and the separators cut it into the pieces that it was joined from, each
of which reads as what it was written from (`Replication.readPlain?_text`). Validation decides the
rest: usable replications are read back, and what others are written as is refused.
-/

namespace ObjectLedger

open Text

/-! ## The characters of a text -/

/-- The characters of words and numbers in the text of a replication. -/
def isWordChar (c : Char) : Bool := c.isLower || c.isDigit

/-- The characters that replications are written with. -/
def isReplicationChar (c : Char) : Bool := isWordChar c || c = '-' || c = '/'

/-- A character of a replication lies in one of two ranges of ASCII. -/
theorem range_of_isReplicationChar {c : Char} (plain : isReplicationChar c) :
    45 ≤ c.toNat ∧ c.toNat ≤ 57 ∨ 97 ≤ c.toNat ∧ c.toNat ≤ 122 := by
  unfold isReplicationChar isWordChar Char.isLower Char.isDigit at plain
  simp only [Bool.or_eq_true, Bool.and_eq_true, decide_eq_true_eq, UInt32.le_iff_toNat_le,
    ge_iff_le] at plain
  change ((97 ≤ c.toNat ∧ c.toNat ≤ 122 ∨ 48 ≤ c.toNat ∧ c.toNat ≤ 57) ∨ c = '-') ∨ c = '/'
    at plain
  rcases plain with ((lower | digit) | dash) | slash
  · exact .inr lower
  · omega
  · subst dash
    decide
  · subst slash
    decide

/-- No character of a replication is blank. -/
theorem isBlank_of_isReplicationChar {c : Char} (plain : isReplicationChar c) :
    isBlank c = false := by
  have range := range_of_isReplicationChar plain
  simp only [isBlank, blankRanges, List.any_cons, List.any_nil, Bool.or_false, Bool.or_eq_false_iff,
    Bool.and_eq_false_iff, decide_eq_false_iff_not]
  omega

/-- The characters of a replication are in lower case. -/
theorem toLower_of_isReplicationChar {c : Char} (plain : isReplicationChar c) :
    c.toLower = c := by
  have range := range_of_isReplicationChar plain
  have small : ¬ ('A'.val ≤ c.val ∧ c.val ≤ 'Z'.val) := by
    simp only [UInt32.le_iff_toNat_le]
    change ¬ (65 ≤ c.toNat ∧ c.toNat ≤ 90)
    omega
  unfold Char.toLower
  exact dif_neg small

/-- Decimal digits separate no words. -/
theorem isWordChar_of_mem_decimal {n : Nat} {c : Char} (member : c ∈ decimal n) :
    isWordChar c := by
  unfold isWordChar
  rw [isDigit_of_mem_decimal member, Bool.or_true]

namespace ErasureCodec

/-- The name of a codec is one word. -/
theorem isWordChar_of_mem_name {codec : ErasureCodec} :
    ∀ c ∈ codec.name.toList, isWordChar c := by
  cases codec with
  | reedSolomon => exact List.all_eq_true.1 rfl
  | xor => exact List.all_eq_true.1 rfl

end ErasureCodec

namespace Replication

/-- What the size of a chunk is written as. -/
def chunkSizeText (size : Nat) : List Char :=
  if size % 1024 = 0 then decimal (size / 1024) ++ ['k'] else decimal size

/-- The size of a chunk is written as one word. -/
theorem isWordChar_of_mem_chunkSizeText {size : Nat} :
    ∀ c ∈ chunkSizeText size, isWordChar c := by
  intro c member
  unfold chunkSizeText at member
  split at member
  · rcases List.mem_append.1 member with digit | unit
    · exact isWordChar_of_mem_decimal digit
    · rw [List.mem_singleton.1 unit]
      decide
  · exact isWordChar_of_mem_decimal member

/-! ## The pieces of a text -/

/-- An erasure code is written as four words between dashes. -/
theorem toList_text_erasureCoded (code : ErasureCode) :
    (erasureCoded code).text.toList = code.codec.name.toList ++ '-' ::
      (decimal code.data.toNat ++ '-' ::
        (decimal code.parity.toNat ++ '-' :: chunkSizeText code.chunkSize.toNat)) := by
  unfold text ErasureCode.text chunkSizeText
  simp only [String.toList_append, String.toList_ofList, List.append_assoc]
  rfl

theorem toList_text_ratis (factor : UInt8) :
    (ratis factor).text.toList = "ratis".toList ++ '/' :: decimal factor.toNat := by
  unfold text
  simp only [String.toList_append, String.toList_ofList]
  rfl

theorem toList_text_standalone (factor : UInt8) :
    (standalone factor).text.toList = "standalone".toList ++ '/' :: decimal factor.toNat := by
  unfold text
  simp only [String.toList_append, String.toList_ofList]
  rfl

/-- No replication is written as nothing. -/
theorem text_ne_empty (replication : Replication) : replication.text ≠ "" := by
  intro empty
  have none : replication.text.toList = [] := String.toList_eq_nil_iff.2 empty
  cases replication with
  | ratis factor => cases toList_text_ratis factor ▸ none
  | standalone factor => cases toList_text_standalone factor ▸ none
  | erasureCoded code =>
      rw [toList_text_erasureCoded] at none
      cases (List.append_eq_nil_iff.1 none).2

/-- An erasure code is written with words, numbers and dashes. -/
theorem isWordChar_or_dash {code : ErasureCode} {c : Char}
    (member : c ∈ (erasureCoded code).text.toList) : isWordChar c ∨ c = '-' := by
  simp only [toList_text_erasureCoded, List.mem_append, List.mem_cons] at member
  rcases member with codec | dash | data | dash | parity | dash | size
  · exact .inl (ErasureCodec.isWordChar_of_mem_name c codec)
  · exact .inr dash
  · exact .inl (isWordChar_of_mem_decimal data)
  · exact .inr dash
  · exact .inl (isWordChar_of_mem_decimal parity)
  · exact .inr dash
  · exact .inl (isWordChar_of_mem_chunkSizeText c size)

/-- Copies are written with a word, a slash and a number. -/
theorem isReplicationChar_of_mem_copies {kind : List Char} (word : ∀ c ∈ kind, isWordChar c)
    {factor : Nat} {c : Char} (member : c ∈ kind ++ '/' :: decimal factor) :
    isReplicationChar c := by
  unfold isReplicationChar
  rcases List.mem_append.1 member with letter | member
  · rw [word c letter, Bool.true_or, Bool.true_or]
  rcases List.mem_cons.1 member with slash | digit
  · rw [decide_eq_true slash, Bool.or_true]
  · rw [isWordChar_of_mem_decimal digit, Bool.true_or, Bool.true_or]

/-- Every replication is written with these characters. -/
theorem isReplicationChar_of_mem_text {replication : Replication} {c : Char}
    (member : c ∈ replication.text.toList) : isReplicationChar c := by
  cases replication with
  | ratis factor =>
      rw [toList_text_ratis] at member
      exact isReplicationChar_of_mem_copies (List.all_eq_true.1 rfl) member
  | standalone factor =>
      rw [toList_text_standalone] at member
      exact isReplicationChar_of_mem_copies (List.all_eq_true.1 rfl) member
  | erasureCoded code =>
      unfold isReplicationChar
      rcases isWordChar_or_dash member with word | dash
      · rw [word, Bool.true_or, Bool.true_or]
      · rw [decide_eq_true dash, Bool.or_true, Bool.true_or]

/-- Reading takes nothing away from a text that was written, and changes no letter of it. -/
theorem normal_text (replication : Replication) :
    (trim replication.text.toList).map Char.toLower = replication.text.toList := by
  have dense : ∀ c ∈ replication.text.toList, isBlank c = false := fun c member =>
    isBlank_of_isReplicationChar (isReplicationChar_of_mem_text member)
  have lower : ∀ c ∈ replication.text.toList, c.toLower = c := fun c member =>
    toLower_of_isReplicationChar (isReplicationChar_of_mem_text member)
  rw [trim_of_dense dense, List.map_congr_left lower, List.map_id']

/-! ## Reading the pieces -/

/-- A factor is read back from its digits. -/
theorem readFactor?_decimal (factor : UInt8) :
    readFactor? (decimal factor.toNat) = some factor := by
  unfold readFactor?
  rw [readDecimal?_decimal factor.toNat_lt_size, Option.map_some, UInt8.ofNat_toNat]

/-- A number of units is read back from its digits. -/
theorem readCount?_decimal (count : UInt32) :
    readCount? (decimal count.toNat) = some count := by
  unfold readCount?
  rw [readDecimal?_decimal count.toNat_lt_size, Option.map_some, UInt32.ofNat_toNat]

/-- A codec is read back from its name. -/
theorem readCodec?_name (codec : ErasureCodec) : readCodec? codec.name.toList = some codec := by
  cases codec with
  | reedSolomon => rfl
  | xor => rfl

/-- The size of a chunk is read back, in kibibytes or in bytes. -/
theorem readChunkSize?_text (size : UInt32) :
    readChunkSize? (chunkSizeText size.toNat) = some size := by
  have word := size.toNat_lt_size
  unfold readChunkSize? chunkSizeText
  by_cases whole : size.toNat % 1024 = 0
  · have product : size.toNat / 1024 * 1024 = size.toNat := by omega
    rw [if_pos whole, List.getLast?_concat, if_pos rfl, List.dropLast_concat,
      readDecimal?_decimal (by omega), Option.bind_some, product, if_pos word, UInt32.ofNat_toNat]
  · have unitless : (decimal size.toNat).getLast? ≠ some 'k' := by
      intro unit
      have digit := isDigit_of_mem_decimal (List.mem_of_getLast? unit)
      cases digit
    rw [if_neg whole, if_neg unitless, readCount?_decimal]

/-- A text that was written reads as its replication, usable or not. -/
theorem readPlain?_text (replication : Replication) :
    readPlain? replication.text.toList = some replication := by
  unfold readPlain?
  cases replication with
  | ratis factor =>
      have kind : '/' ∉ "ratis".toList := by decide
      rw [toList_text_ratis, cut?_append kind]
      dsimp only
      rw [readFactor?_decimal]
      rfl
  | standalone factor =>
      have kind : '/' ∉ "standalone".toList := by decide
      rw [toList_text_standalone, cut?_append kind]
      dsimp only
      rw [readFactor?_decimal]
      rfl
  | erasureCoded code =>
      have number : ∀ n : Nat, '-' ∉ decimal n := fun n =>
        notMem_of_class (fun c => isWordChar_of_mem_decimal) rfl
      have codec : '-' ∉ code.codec.name.toList :=
        notMem_of_class ErasureCodec.isWordChar_of_mem_name rfl
      have size : '-' ∉ chunkSizeText code.chunkSize.toNat :=
        notMem_of_class isWordChar_of_mem_chunkSizeText rfl
      have slash : '/' ∉ (erasureCoded code).text.toList := by
        intro member
        rcases isWordChar_or_dash member with word | dash
        · cases word
        · cases dash
      rw [cut?_of_notMem slash]
      dsimp only
      rw [toList_text_erasureCoded, fields_append codec, fields_append (number _),
        fields_append (number _), fields_of_notMem size]
      dsimp only
      rw [readCodec?_name, readCount?_decimal, readCount?_decimal, readChunkSize?_text]
      rfl

/-- Reading a text that was written leaves the verdict to validation. -/
theorem ofText_text (replication : Replication) :
    ofText replication.text = replication.validate.map fun _ => replication := by
  unfold ofText
  rw [normal_text, readPlain?_text]
  dsimp only
  cases replication.validate with
  | ok passed => rfl
  | error cause => rfl

/-- A usable replication is read back from its text. -/
theorem ofText_of_usable {replication : Replication} (usable : replication.Usable) :
    ofText replication.text = .ok replication := by
  unfold Usable at usable
  rw [ofText_text, usable]
  rfl

/-- What is not usable is refused for the reason that validation gives. -/
theorem ofText_of_not_usable {replication : Replication} (unusable : ¬ replication.Usable) :
    ∃ cause, replication.validate = .error cause ∧ ofText replication.text = .error cause := by
  unfold Usable at unusable
  rw [ofText_text]
  cases verdict : replication.validate with
  | ok passed => exact (unusable verdict).elim
  | error cause => exact ⟨cause, rfl, rfl⟩

/-- Only usable replications are read. -/
theorem usable_of_ofText {input : String} {replication : Replication}
    (read : ofText input = .ok replication) : replication.Usable := by
  unfold ofText at read
  split at read
  · cases read
  · rename_i found
    split at read
    · rename_i passed
      cases read
      exact passed
    · cases read

end Replication

end ObjectLedger
