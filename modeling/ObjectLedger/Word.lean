/-! # Words that report overflow

Sizes, counters and identifiers are 64-bit words. An exact result that no longer
fits its word is an `Overflow`, which ends the operation that computed it; the
clamped operations stop at the largest word instead.
-/

namespace ObjectLedger

/-- The operation whose exact result does not fit its word. -/
inductive Overflow where
  | add
  | mul
deriving DecidableEq, Repr

def Overflow.message : Overflow → String
  | .add => "attempt to add with overflow"
  | .mul => "attempt to multiply with overflow"

namespace Word

/-- The exact sum of two words, if it is a word. -/
def add (a b : UInt64) : Except Overflow UInt64 :=
  if a.toNat + b.toNat < UInt64.size then .ok (a + b) else .error .add

/-- The exact product of two words, if it is a word. -/
def mul (a b : UInt64) : Except Overflow UInt64 :=
  if a.toNat * b.toNat < UInt64.size then .ok (a * b) else .error .mul

/-- The exact sum of two half words, if it is a half word. -/
def addHalf (a b : UInt32) : Except Overflow UInt32 :=
  if a.toNat + b.toNat < UInt32.size then .ok (a + b) else .error .add

/-- The exact sum of a list of words, if no partial sum leaves the word. -/
def sum (words : List UInt64) : Except Overflow UInt64 :=
  words.foldlM add 0

/-- The word nearest to a natural number. -/
def clamp (n : Nat) : UInt64 :=
  UInt64.ofNat (min n (UInt64.size - 1))

/-- The signed word nearest to an integer. -/
def clampSigned (i : Int) : Int64 :=
  Int64.ofInt (max Int64.minValue.toInt (min i Int64.maxValue.toInt))

theorem toNat_clamp (n : Nat) : (clamp n).toNat = min n (UInt64.size - 1) := by
  have small : min n (UInt64.size - 1) < UInt64.size :=
    Nat.lt_of_le_of_lt (Nat.min_le_right ..) (by decide)
  exact UInt64.toNat_ofNat_of_lt' small

/-- A sum is given exactly if it is a word, and is exact then. -/
theorem add_ok_iff {a b c : UInt64} :
    add a b = .ok c ↔ a.toNat + b.toNat = c.toNat := by
  unfold add
  split
  · rename_i fits
    rw [Except.ok.injEq, ← UInt64.toNat_inj, UInt64.toNat_add, Nat.mod_eq_of_lt fits]
  · rename_i large
    have small := c.toNat_lt_size
    simp only [reduceCtorEq, false_iff]
    omega

/-- What cannot be added does not fit a word. -/
theorem size_le_of_add_error {a b : UInt64} {cause : Overflow} (failed : add a b = .error cause) :
    UInt64.size ≤ a.toNat + b.toNat := by
  unfold add at failed
  split at failed
  · cases failed
  · exact Nat.le_of_not_lt ‹_›

/-- A product is given exactly if it is a word, and is exact then. -/
theorem mul_ok_iff {a b c : UInt64} :
    mul a b = .ok c ↔ a.toNat * b.toNat = c.toNat := by
  unfold mul
  split
  · rename_i fits
    rw [Except.ok.injEq, ← UInt64.toNat_inj, UInt64.toNat_mul, Nat.mod_eq_of_lt fits]
  · rename_i large
    have small := c.toNat_lt_size
    simp only [reduceCtorEq, false_iff]
    omega

/-- The successor of a word below the largest one does not wrap. -/
theorem toNat_succ {a : UInt64} (fits : a.toNat + 1 < UInt64.size) :
    (a + 1).toNat = a.toNat + 1 := by
  have one : (1 : UInt64).toNat = 1 := rfl
  rw [UInt64.toNat_add, one, Nat.mod_eq_of_lt fits]

theorem toNat_max (a b : UInt64) : (max a b).toNat = max a.toNat b.toNat := by
  change (if a ≤ b then b else a).toNat = _
  by_cases below : a ≤ b
  · rw [if_pos below, Nat.max_eq_right (UInt64.le_iff_toNat_le.1 below)]
  · rw [if_neg below, Nat.max_eq_left (Nat.le_of_not_le (below ∘ UInt64.le_iff_toNat_le.2))]

end Word

end ObjectLedger
