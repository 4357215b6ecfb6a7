import ObjectLedger.Proofs.Checked
import ObjectLedger.Service.Commit

/-! # What blocks are charged

Blocks are charged for the bytes that storage nodes hold for their total length
(`Replication.exactSize`), clamped to the largest word, if their lengths and the parity bytes can be
counted at all (`Replication.charge_eq_ok_iff`). An object that fills whole stripes is charged apart
from what follows it (`Replication.exactSize_add`).
-/

namespace ObjectLedger

namespace Word

theorem mul_of_lt {a b : UInt64} (fits : a.toNat * b.toNat < UInt64.size) :
    mul a b = .ok (a * b) := if_pos fits

theorem add_of_lt {a b : UInt64} (fits : a.toNat + b.toNat < UInt64.size) :
    add a b = .ok (a + b) := if_pos fits

/-- The exact sum of a list of words, however large it is. -/
def total (words : List UInt64) : Nat :=
  words.foldr (fun word rest => word.toNat + rest) 0

theorem total_append (words other : List UInt64) :
    total (words ++ other) = total words + total other := by
  induction words with
  | nil => exact (Nat.zero_add _).symm
  | cons word rest ih =>
      change word.toNat + total (rest ++ other) = word.toNat + total rest + total other
      rw [ih, Nat.add_assoc]

/-- Adding up words succeeds exactly if the total fits. -/
theorem foldlM_add_ok_iff {words : List UInt64} {start sum : UInt64} :
    words.foldlM add start = .ok sum ↔ start.toNat + total words = sum.toNat := by
  induction words generalizing start with
  | nil =>
      change Except.ok start = .ok sum ↔ start.toNat = sum.toNat
      rw [UInt64.toNat_inj]
      exact ⟨Except.ok.inj, congrArg Except.ok⟩
  | cons word rest ih =>
      change _ ↔ start.toNat + (word.toNat + total rest) = sum.toNat
      rw [List.foldlM_cons, ← Nat.add_assoc]
      cases added : add start word with
      | ok next =>
          rw [add_ok_iff.1 added]
          exact ih
      | error cause =>
          have small := sum.toNat_lt_size
          unfold add at added
          split at added
          · cases added
          · exact iff_of_false (fun same => by cases same) (by omega)

/-- A sum of words is their total, if that fits a word. -/
theorem sum_ok_iff {words : List UInt64} {exact : UInt64} :
    sum words = .ok exact ↔ total words = exact.toNat := by
  unfold sum
  rw [foldlM_add_ok_iff, UInt64.toNat_zero, Nat.zero_add]

theorem toNat_min (a b : UInt64) : (min a b).toNat = min a.toNat b.toNat := by
  change (if a ≤ b then a else b).toNat = _
  split
  · rename_i below
    rw [Nat.min_eq_left (UInt64.le_iff_toNat_le.1 below)]
  · rename_i above
    rw [Nat.min_eq_right (Nat.le_of_not_le (above ∘ UInt64.le_iff_toNat_le.2))]

/-- The first number above the signed words. -/
def signedSize : Nat := 9223372036854775808

/-- A number within the signed range is kept. -/
theorem clampSigned_of_lt {n : Nat} (small : n < signedSize) : clampSigned n = .ofNat n := by
  have low : Int64.minValue.toInt = -9223372036854775808 := by decide
  have high : Int64.maxValue.toInt = 9223372036854775807 := by decide
  unfold signedSize at small
  unfold clampSigned
  rw [low, high, Int.min_eq_left (by omega), Int.max_eq_right (by omega)]
  rfl

/-- A number beyond the signed range is cut to the largest one. -/
theorem clampSigned_of_le {n : Nat} (large : signedSize ≤ n) :
    clampSigned n = Int64.maxValue := by
  have low : Int64.minValue.toInt = -9223372036854775808 := by decide
  have high : Int64.maxValue.toInt = 9223372036854775807 := by decide
  unfold signedSize at large
  unfold clampSigned
  rw [low, high, Int.min_eq_right (by omega), Int.max_eq_right (by omega)]
  rfl

end Word

/-- The total length of some blocks. -/
def Block.total (blocks : List Block) : Nat := Word.total (blocks.map (·.length))

theorem Block.total_append (blocks other : List Block) :
    total (blocks ++ other) = total blocks + total other := by
  unfold total
  rw [List.map_append, Word.total_append]

/-- The total length is one of the lengths alone. -/
theorem Block.total_flatMap {α : Type} (items : List α) (blocks : α → List Block) :
    total (items.flatMap blocks) =
      Word.total (items.map fun item => (blocks item).map (·.length)).flatten := by
  unfold total
  rw [List.map_flatMap, List.flatMap_def]

/-- Dropping the placement of blocks leaves their lengths. -/
theorem VersionGroup.lengths_withoutPipelines (group : VersionGroup) :
    group.withoutPipelines.blocks.map (·.length) = group.blocks.map (·.length) := by
  unfold withoutPipelines
  rw [List.map_map]
  rfl

namespace Replication

/-- The parity bytes for an object, however many they are. -/
def exactParity (code : ErasureCode) (size : Nat) : Nat :=
  size / code.stripeSize.toNat * code.parity.toNat * code.chunkSize.toNat +
    min code.chunkSize.toNat (size % code.stripeSize.toNat) * code.parity.toNat

/-- The bytes that storage nodes hold for an object, however many they are. -/
def exactSize : Replication → Nat → Nat
  | .ratis factor, size | .standalone factor, size => size * factor.toNat
  | .erasureCoded code, size =>
    if code.stripeSize = 0 then size else size + exactParity code size

/-- An object ends where a stripe ends, if it is stored in stripes. -/
def Whole : Replication → Nat → Prop
  | .erasureCoded code, size => code.stripeSize.toNat ∣ size
  | .ratis _, _ | .standalone _, _ => True

instance (replication : Replication) (size : Nat) : Decidable (replication.Whole size) :=
  match replication with
  | .erasureCoded code => inferInstanceAs (Decidable (code.stripeSize.toNat ∣ size))
  | .ratis _ | .standalone _ => .isTrue trivial

/-- The bytes beside the copies of an object: its parity bytes, however many they are. -/
def parity : Replication → Nat → Nat
  | .ratis _, _ | .standalone _, _ => 0
  | .erasureCoded code, size => if code.stripeSize = 0 then 0 else exactParity code size

/-- The total length of some blocks is a word, and so are the parity bytes for it. -/
def Counts (replication : Replication) (blocks : List Block) : Prop :=
  Block.total blocks < UInt64.size ∧ replication.parity (Block.total blocks) < UInt64.size

instance (replication : Replication) (blocks : List Block) :
    Decidable (replication.Counts blocks) :=
  inferInstanceAs (Decidable (_ ∧ _))

variable {replication : Replication} {code : ErasureCode} {blocks : List Block} {bytes : Int64}

/-- Stripes that are not empty have chunks that are not. -/
theorem pos_of_stripeSize (striped : code.stripeSize ≠ 0) :
    0 < code.stripeSize.toNat ∧ 0 < code.chunkSize.toNat := by
  constructor
  · refine Nat.pos_of_ne_zero fun none => striped ?_
    rw [← UInt64.toNat_inj, none]
    rfl
  · refine Nat.pos_of_ne_zero fun none => striped ?_
    unfold ErasureCode.stripeSize
    rw [← UInt64.toNat_inj, UInt64.toNat_mul, UInt32.toNat_toUInt64 code.chunkSize, none]
    rfl

theorem exactParity_zero (code : ErasureCode) : exactParity code 0 = 0 := by
  unfold exactParity
  rw [Nat.zero_div, Nat.zero_mod, Nat.min_zero, Nat.zero_mul, Nat.zero_mul]

theorem exactSize_zero (replication : Replication) : replication.exactSize 0 = 0 := by
  cases replication with
  | ratis factor => exact Nat.zero_mul _
  | standalone factor => exact Nat.zero_mul _
  | erasureCoded code =>
      unfold exactSize
      dsimp only
      rw [exactParity_zero, ite_self]

/-- What follows whole stripes is stored as if it stood alone. -/
theorem exactSize_add {size : Nat} (whole : replication.Whole size) (more : Nat) :
    replication.exactSize (size + more) =
      replication.exactSize size + replication.exactSize more := by
  cases replication with
  | ratis factor => exact Nat.add_mul ..
  | standalone factor => exact Nat.add_mul ..
  | erasureCoded code =>
      obtain ⟨stripes, rfl⟩ := whole
      unfold exactSize
      dsimp only
      split
      · rfl
      · rename_i striped
        have positive := (pos_of_stripeSize striped).1
        unfold exactParity
        rw [Nat.mul_add_mod, Nat.mul_mod_right, Nat.mul_add_div positive,
          Nat.mul_div_cancel_left _ positive, Nat.min_zero, Nat.add_mul, Nat.add_mul]
        omega

/-- The parity bytes are exact if they can be counted. -/
theorem toNat_parityBytes {size held : UInt64} (counted : parityBytes code size = .ok held) :
    held.toNat = exactParity code size.toNat := by
  obtain ⟨chunks, first, counted⟩ := bind_eq_ok_iff.1 counted
  obtain ⟨whole, second, counted⟩ := bind_eq_ok_iff.1 counted
  obtain ⟨part, third, fourth⟩ := bind_eq_ok_iff.1 counted
  rw [Word.mul_ok_iff] at first second third
  rw [Word.add_ok_iff] at fourth
  rw [← fourth, ← second, ← third, ← first, Word.toNat_min, UInt64.toNat_div, UInt64.toNat_mod,
    UInt32.toNat_toUInt64, UInt32.toNat_toUInt64]
  rfl

/-- Parity bytes that fit a word can be counted. -/
theorem parityBytes_of_lt (striped : code.stripeSize ≠ 0) {size : UInt64}
    (fits : exactParity code size.toNat < UInt64.size) :
    ∃ held, parityBytes code size = .ok held := by
  have positive := (pos_of_stripeSize striped).2
  unfold exactParity at fits
  have chunks := Nat.le_mul_of_pos_right
    (size.toNat / code.stripeSize.toNat * code.parity.toNat) positive
  have first : Word.mul (size / code.stripeSize) code.parity.toUInt64 = _ :=
    Word.mul_of_lt (by rw [UInt64.toNat_div, UInt32.toNat_toUInt64]; omega)
  have product := Word.mul_ok_iff.1 first
  rw [UInt64.toNat_div, UInt32.toNat_toUInt64] at product
  have second : Word.mul _ code.chunkSize.toUInt64 = _ :=
    Word.mul_of_lt (by rw [← product, UInt32.toNat_toUInt64]; omega)
  have least : (min code.chunkSize.toUInt64 (size % code.stripeSize)).toNat =
      min code.chunkSize.toNat (size.toNat % code.stripeSize.toNat) := by
    rw [Word.toNat_min, UInt64.toNat_mod, UInt32.toNat_toUInt64]
  have third : Word.mul (min code.chunkSize.toUInt64 (size % code.stripeSize))
      code.parity.toUInt64 = _ :=
    Word.mul_of_lt (by rw [least, UInt32.toNat_toUInt64]; omega)
  have whole := Word.mul_ok_iff.1 second
  have part := Word.mul_ok_iff.1 third
  rw [← product, UInt32.toNat_toUInt64] at whole
  rw [least, UInt32.toNat_toUInt64] at part
  refine ⟨_, bind_eq_ok_iff.2 ⟨_, first, bind_eq_ok_iff.2 ⟨_, second,
    bind_eq_ok_iff.2 ⟨_, third, Word.add_of_lt ?_⟩⟩⟩⟩
  rwa [← whole, ← part]

/-- A replicated size is exact up to the largest word, if it can be counted. -/
theorem toNat_replicatedSize {size held : UInt64}
    (counted : replication.replicatedSize size = .ok held) :
    held.toNat = min (replication.exactSize size.toNat) (UInt64.size - 1) := by
  unfold replicatedSize at counted
  cases replication with
  | ratis factor =>
      cases counted
      exact Word.toNat_clamp _
  | standalone factor =>
      cases counted
      exact Word.toNat_clamp _
  | erasureCoded code =>
      unfold exactSize
      dsimp only at counted ⊢
      split at counted
      · rename_i none
        cases counted
        have small := size.toNat_lt_size
        rw [if_pos none]
        omega
      · rename_i striped
        obtain ⟨overhead, parity, counted⟩ := bind_eq_ok_iff.1 counted
        cases counted
        rw [if_neg striped, Word.toNat_clamp, toNat_parityBytes parity]

/-- A replicated size can be counted if the parity bytes are a word. -/
theorem exists_replicatedSize_iff (size : UInt64) :
    (∃ held, replication.replicatedSize size = .ok held) ↔
      replication.parity size.toNat < UInt64.size := by
  cases replication with
  | ratis factor => exact iff_of_true ⟨_, rfl⟩ (Nat.two_pow_pos 64)
  | standalone factor => exact iff_of_true ⟨_, rfl⟩ (Nat.two_pow_pos 64)
  | erasureCoded code =>
      unfold replicatedSize parity
      dsimp only
      by_cases none : code.stripeSize = 0
      · simp only [if_pos none]
        exact iff_of_true ⟨_, rfl⟩ (Nat.two_pow_pos 64)
      · simp only [if_neg none]
        constructor
        · rintro ⟨held, counted⟩
          obtain ⟨overhead, counted, -⟩ := bind_eq_ok_iff.1 counted
          rw [← toNat_parityBytes counted]
          exact overhead.toNat_lt_size
        · intro fits
          obtain ⟨overhead, counted⟩ := parityBytes_of_lt none fits
          exact ⟨_, bind_eq_ok_iff.2 ⟨overhead, counted, rfl⟩⟩

/-- Blocks of the same lengths are charged the same. -/
theorem charge_congr (replication : Replication) {other : List Block}
    (same : blocks.map (·.length) = other.map (·.length)) :
    replication.charge blocks = replication.charge other := by
  unfold charge
  rw [same]

/-- Parity bytes are among those that storage nodes hold. -/
theorem parity_le_exactSize (replication : Replication) (size : Nat) :
    replication.parity size ≤ replication.exactSize size := by
  cases replication with
  | ratis factor => exact Nat.zero_le _
  | standalone factor => exact Nat.zero_le _
  | erasureCoded code =>
      unfold parity exactSize
      dsimp only
      split
      · exact Nat.zero_le _
      · exact Nat.le_add_left ..

/-- Blocks are charged if their lengths and the parity bytes can be counted, and then for what
storage nodes hold, clamped to the largest signed word. -/
theorem charge_eq_ok_iff : replication.charge blocks = .ok bytes ↔
    replication.Counts blocks ∧
      bytes = Word.clampSigned (replication.exactSize (Block.total blocks)) := by
  -- Beyond the words a size is clamped before it is clamped to the signed ones.
  have clamped : ∀ {held length : UInt64}, replication.replicatedSize length = .ok held →
      Word.clampSigned held.toNat = Word.clampSigned (replication.exactSize length.toNat) := by
    intro held length sized
    have size := toNat_replicatedSize sized
    by_cases small : replication.exactSize length.toNat < UInt64.size
    · rw [size, Nat.min_eq_left (Nat.le_sub_one_of_lt small)]
    · have large : UInt64.size = 2 * Word.signedSize := rfl
      have signed : 1 < Word.signedSize := by decide
      rw [Word.clampSigned_of_le (by omega), Word.clampSigned_of_le (by omega)]
  constructor
  · intro charge
    obtain ⟨length, sum, charge⟩ := bind_eq_ok_iff.1 charge
    obtain ⟨held, sized, charge⟩ := bind_eq_ok_iff.1 charge
    have total : Block.total blocks = length.toNat := Word.sum_ok_iff.1 sum
    cases charge
    unfold Counts
    rw [total, clamped sized]
    exact ⟨⟨length.toNat_lt_size, (exists_replicatedSize_iff length).1 ⟨held, sized⟩⟩, rfl⟩
  · rintro ⟨⟨fits, parity⟩, rfl⟩
    have length := (UInt64.toNat_ofNat_of_lt' fits).symm
    rw [length] at parity ⊢
    obtain ⟨held, sized⟩ := (exists_replicatedSize_iff _).2 parity
    rw [← clamped sized]
    exact bind_eq_ok_iff.2 ⟨_, Word.sum_ok_iff.2 length, bind_eq_ok_iff.2 ⟨held, sized, rfl⟩⟩

/-- A charge below the largest word is what storage nodes hold. -/
theorem charge_exact (charge : replication.charge blocks = .ok bytes)
    (unclamped : bytes ≠ Int64.maxValue) : Block.total blocks < UInt64.size ∧
      replication.exactSize (Block.total blocks) < Word.signedSize ∧
        bytes = .ofNat (replication.exactSize (Block.total blocks)) := by
  obtain ⟨counted, rfl⟩ := charge_eq_ok_iff.1 charge
  have small : replication.exactSize (Block.total blocks) < Word.signedSize :=
    Nat.lt_of_not_le fun clamped => unclamped (Word.clampSigned_of_le clamped)
  exact ⟨counted.1, small, Word.clampSigned_of_lt small⟩

/-- Blocks for which storage nodes hold less than the largest word are charged for that. -/
theorem charge_of_lt (fits : Block.total blocks < UInt64.size)
    (small : replication.exactSize (Block.total blocks) < Word.signedSize) :
    replication.charge blocks = .ok (.ofNat (replication.exactSize (Block.total blocks))) := by
  have parity := Nat.lt_of_le_of_lt (replication.parity_le_exactSize (Block.total blocks)) small
  have counted : replication.Counts blocks := ⟨fits, Nat.lt_trans parity (by decide)⟩
  exact charge_eq_ok_iff.2 ⟨counted, (Word.clampSigned_of_lt small).symm⟩

/-- A charge overflows where the lengths or the parity bytes cannot be counted. -/
theorem not_counts_of_charge {cause : Overflow}
    (failed : replication.charge blocks = .error cause) : ¬ replication.Counts blocks := by
  intro counted
  cases failed.symm.trans (charge_eq_ok_iff.2 ⟨counted, rfl⟩)

/-- No block is charged nothing. -/
theorem charge_nil (replication : Replication) : replication.charge [] = .ok 0 := by
  have size : replication.exactSize (Block.total []) = 0 := replication.exactSize_zero
  have charged : replication.charge [] = .ok (.ofNat (replication.exactSize (Block.total []))) :=
    charge_of_lt (by decide) (by rw [size]; decide)
  rw [charged, size]
  rfl

end Replication

end ObjectLedger
