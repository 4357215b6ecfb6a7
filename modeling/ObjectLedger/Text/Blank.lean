/-! # Blank characters

The characters with the Unicode property `White_Space`, and the text that is
left when the blanks at both ends are taken away.
-/

namespace ObjectLedger.Text

/-- The ranges of the Unicode property `White_Space`, both ends included. -/
def blankRanges : List (Nat × Nat) :=
  [(0x9, 0xd), (0x20, 0x20), (0x85, 0x85), (0xa0, 0xa0), (0x1680, 0x1680), (0x2000, 0x200a),
    (0x2028, 0x2029), (0x202f, 0x202f), (0x205f, 0x205f), (0x3000, 0x3000)]

/-- A blank is a character of one of the blank ranges. -/
def isBlank (c : Char) : Bool :=
  blankRanges.any fun (first, last) => first ≤ c.toNat && c.toNat ≤ last

/-- The text without the blanks at its two ends. -/
def trim (cs : List Char) : List Char :=
  ((cs.dropWhile isBlank).reverse.dropWhile isBlank).reverse

/-- A text without blanks loses none of its beginning. -/
theorem dropWhile_isBlank {cs : List Char} (dense : ∀ c ∈ cs, isBlank c = false) :
    cs.dropWhile isBlank = cs := by
  cases cs with
  | nil => rfl
  | cons c rest =>
    rw [List.dropWhile_cons_of_neg]
    rw [dense c List.mem_cons_self]
    exact Bool.false_ne_true

/-- A text without blanks is left as it is. -/
theorem trim_of_dense {cs : List Char} (dense : ∀ c ∈ cs, isBlank c = false) : trim cs = cs := by
  rw [trim, dropWhile_isBlank dense,
    dropWhile_isBlank fun c member => dense c (List.mem_reverse.1 member), List.reverse_reverse]

end ObjectLedger.Text
