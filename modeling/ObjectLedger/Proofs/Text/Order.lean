import Mathlib.Tactic.SplitIfs

/-! # Texts are ordered as their bytes

The bytes of a smaller character come before those of a larger one, whatever follows either of them
(`encodeChar_lt`). So the order of texts by their characters is the order of their bytes
(`utf8_lt_iff`), and a text starts with another one exactly if its bytes start with those of the
other (`utf8_prefix_iff`).
-/

namespace ObjectLedger

/-- The bytes of a text. -/
def utf8 (text : String) : List UInt8 := text.toUTF8.data.toList

/-- The bytes of a text are those of its characters, one after the other. -/
theorem utf8_eq (text : String) : utf8 text = text.toList.flatMap String.utf8EncodeChar := by
  conv => lhs; rw [← String.ofList_toList (s := text)]
  rw [utf8, String.toUTF8_eq_toByteArray, String.toByteArray_ofList, List.utf8Encode,
    List.data_toByteArray]

/-! ## Characters -/

/-- Bytes are compared by their numbers, and then by what follows. -/
theorem cons_ofNat_lt_iff {m n : Nat} (m_small : m < 256) (n_small : n < 256)
    (left right : List UInt8) :
    UInt8.ofNat m :: left < UInt8.ofNat n :: right ↔ m < n ∨ m = n ∧ left < right := by
  rw [List.cons_lt_cons_iff, UInt8.lt_iff_toNat_lt, ← UInt8.toNat_inj,
    UInt8.toNat_ofNat_of_lt' m_small, UInt8.toNat_ofNat_of_lt' n_small]

/-- The smaller of two numbers has the smaller leading digits, or else the smaller last one. -/
theorem digits_lt {m n : Nat} (below : m < n) (base : Nat) :
    m / base < n / base ∨ m / base = n / base ∧ m % base < n % base := by
  rcases Nat.lt_or_eq_of_le (Nat.div_le_div_right (Nat.le_of_lt below)) with less | same
  · exact .inl less
  · refine .inr ⟨same, ?_⟩
    have left := Nat.div_add_mod m base
    have right := Nat.div_add_mod n base
    rw [same] at left
    omega

/-- The bytes of a smaller character come first, whatever follows. -/
theorem encodeChar_lt {c d : Char} (below : c < d) (left right : List UInt8) :
    String.utf8EncodeChar c ++ left < String.utf8EncodeChar d ++ right := by
  have ordered : c.val.toNat < d.val.toNat := UInt32.lt_iff_toNat_lt.1 below
  have last : d.val.toNat < 0x110000 := by
    have valid := d.valid
    unfold UInt32.isValidChar Nat.isValidChar at valid
    omega
  unfold String.utf8EncodeChar
  generalize c.val.toNat = m at *
  generalize d.val.toNat = n at *
  -- The bytes of a character are the digits of its number to the base 64, the first one marked by
  -- their count: a number of fewer digits has the smaller first byte.
  have nested (k : Nat) : k / 4096 = k / 64 / 64 ∧ k / 262144 = k / 64 / 64 / 64 := by
    rw [Nat.div_div_eq_div_mul, Nat.div_div_eq_div_mul]
    exact ⟨rfl, rfl⟩
  simp only [nested]
  have low := digits_lt ordered 64
  have middle (less : m / 64 < n / 64) := digits_lt less 64
  have high (less : m / 64 / 64 < n / 64 / 64) := digits_lt less 64
  split_ifs
  all_goals
    simp (disch := omega) only [List.cons_append, List.nil_append, cons_ofNat_lt_iff]
    omega

/-! ## Texts -/

/-- The bytes of characters are in the order of the characters. -/
theorem flatMap_encodeChar_lt {left right : List Char} (below : left < right) :
    left.flatMap String.utf8EncodeChar < right.flatMap String.utf8EncodeChar := by
  induction left generalizing right with
  | nil =>
      cases right with
      | nil => exact (List.lt_irrefl _ below).elim
      | cons d right =>
          rw [List.flatMap_nil, List.flatMap_cons]
          cases bytes : String.utf8EncodeChar d with
          | nil => exact (String.utf8EncodeChar_ne_nil bytes).elim
          | cons first rest => exact List.nil_lt_cons _ _
  | cons c left ih =>
      cases right with
      | nil => exact (List.not_lt_nil _ below).elim
      | cons d right =>
          rw [List.flatMap_cons, List.flatMap_cons]
          rcases List.cons_lt_cons_iff.1 below with less | ⟨rfl, rest⟩
          · exact encodeChar_lt less _ _
          · exact List.append_left_lt (ih rest)

/-- Texts are ordered as their bytes. -/
theorem utf8_lt_iff (left right : String) : utf8 left < utf8 right ↔ left < right := by
  have ordered {first second : String} (below : first < second) : utf8 first < utf8 second := by
    rw [utf8_eq, utf8_eq]
    exact flatMap_encodeChar_lt (String.lt_iff.1 below)
  constructor
  · intro bytes
    apply Decidable.byContradiction
    intro notBelow
    by_cases same : left = right
    · exact List.lt_irrefl _ (same ▸ bytes)
    · have above : right < left := Std.lt_of_le_of_ne (Std.not_lt.1 notBelow) (Ne.symm same)
      exact List.lt_asymm bytes (ordered above)
  · exact ordered

/-- The bytes of a text start with those of another exactly if the text does. -/
theorem flatMap_encodeChar_prefix_iff (start text : List Char) :
    start.flatMap String.utf8EncodeChar <+: text.flatMap String.utf8EncodeChar ↔
      start <+: text := by
  induction start generalizing text with
  | nil => exact ⟨fun _ => List.nil_prefix, fun _ => List.nil_prefix⟩
  | cons c start ih =>
      cases text with
      | nil =>
          rw [List.flatMap_cons, List.flatMap_nil, List.prefix_nil, List.prefix_nil,
            List.append_eq_nil_iff]
          exact iff_of_false (fun empty => String.utf8EncodeChar_ne_nil empty.1)
            (List.cons_ne_nil _ _)
      | cons d text =>
          rw [List.flatMap_cons, List.flatMap_cons, List.cons_prefix_cons]
          by_cases same : c = d
          · rw [same, List.prefix_append_right_inj, ih, and_iff_right rfl]
          · refine iff_of_false ?_ (fun both => same both.1)
            -- Bytes of different characters part before the shorter ones end.
            rintro ⟨rest, whole⟩
            rw [List.append_assoc] at whole
            rcases Std.lt_trichotomy c d with less | equal | more
            · exact List.lt_irrefl _ (whole ▸ encodeChar_lt less _ _)
            · exact same equal
            · exact List.lt_irrefl _ (whole ▸ encodeChar_lt more _ _)

/-- A text starts with another one exactly if its bytes do. -/
theorem utf8_prefix_iff (start text : String) :
    utf8 start <+: utf8 text ↔ start.toList <+: text.toList := by
  rw [utf8_eq, utf8_eq, flatMap_encodeChar_prefix_iff]

end ObjectLedger
