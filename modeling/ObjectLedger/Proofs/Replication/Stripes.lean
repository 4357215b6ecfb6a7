import Mathlib.Algebra.Ring.Nat
import ObjectLedger.Proofs.Store.Charge

/-! # What stripes take

An erasure-coded object is cut into stripes and each stripe into chunks (`pieces`). Every stripe has
as many parity chunks as the code says, each as long as the first chunk of the stripe, so an object
takes its own bytes and the parity of its stripes (`Replication.stored`). That is what a quotient
and a remainder count (`ErasureCode.overhead_eq`). A replicated size is counted if the parity of all
stripes is a word, and is clamped only then (`Replication.sized_of_usable`). The parity of some
objects is no word, and the chunks of some stripes are more than a half word
(`Replication.unsized_of_large`).
-/

namespace ObjectLedger

/-- The lengths of the pieces of some width into which a length is cut. The last piece may be
shorter than the others. -/
def pieces (width length : Nat) : List Nat :=
  if width = 0 ∨ length = 0 then [] else min width length :: pieces width (length - width)
termination_by length
decreasing_by omega

theorem pieces_zero (width : Nat) : pieces width 0 = [] := by
  rw [pieces, if_pos (.inr rfl)]

/-- A first piece is cut off, as wide as it may be. -/
theorem pieces_of_pos {width length : Nat} (wide : 0 < width) (long : 0 < length) :
    pieces width length = min width length :: pieces width (length - width) := by
  rw [pieces, if_neg (by omega)]

/-- The first piece has the full width, unless the length is less. -/
theorem headD_pieces {width : Nat} (wide : 0 < width) (length : Nat) :
    (pieces width length).headD 0 = min width length := by
  rcases Nat.eq_zero_or_pos length with rfl | long
  · rw [pieces_zero, Nat.min_zero]
    rfl
  · rw [pieces_of_pos wide long]
    rfl

namespace ErasureCode

variable {code : ErasureCode}

/-- The parity bytes of one stripe: parity chunks as long as its first chunk. -/
def stripeParity (code : ErasureCode) (stripe : Nat) : Nat :=
  code.parity.toNat * (pieces code.chunkSize.toNat stripe).headD 0

/-- The parity bytes of all stripes that an object is cut into. -/
def overhead (code : ErasureCode) (size : Nat) : Nat :=
  ((pieces (code.data.toNat * code.chunkSize.toNat) size).map code.stripeParity).sum

/-- A full stripe always fits a word. -/
theorem toNat_stripeSize (code : ErasureCode) :
    code.stripeSize.toNat = code.data.toNat * code.chunkSize.toNat := by
  have fits : code.data.toNat * code.chunkSize.toNat < UInt64.size :=
    Nat.mul_lt_mul'' code.data.toNat_lt_size code.chunkSize.toNat_lt_size
  rw [stripeSize, UInt64.toNat_mul, UInt32.toNat_toUInt64, UInt32.toNat_toUInt64,
    Nat.mod_eq_of_lt fits]

/-- Cut into pieces that are no narrower than a bound, a length gives the bound for each full piece
and what remains of it for the last one. -/
theorem sum_min_pieces {bound width : Nat} (wide : 0 < width) (narrow : bound ≤ width)
    (scale length : Nat) :
    ((pieces width length).map fun piece => scale * min bound piece).sum =
      length / width * scale * bound + min bound (length % width) * scale := by
  induction length using Nat.strongRecOn with
  | ind length ih =>
      rcases Nat.eq_zero_or_pos length with rfl | long
      · rw [pieces_zero, Nat.zero_div, Nat.zero_mod, Nat.min_zero]
        simp
      rw [pieces_of_pos wide long, List.map_cons, List.sum_cons]
      rcases Nat.lt_or_ge length width with partly | full
      · -- The only piece is a partial one.
        rw [Nat.sub_eq_zero_of_le (Nat.le_of_lt partly), pieces_zero, Nat.div_eq_of_lt partly,
          Nat.mod_eq_of_lt partly, Nat.min_eq_right (Nat.le_of_lt partly), List.map_nil,
          List.sum_nil, Nat.zero_mul, Nat.zero_mul, Nat.zero_add, Nat.add_zero, Nat.mul_comm]
      · -- A full piece is taken off, and the quotient falls by one.
        rw [ih (length - width) (by omega), Nat.min_eq_left full, Nat.min_eq_left narrow,
          ← Nat.mod_eq_sub_mod full, Nat.div_eq_sub_div wide full, Nat.add_mul, Nat.add_mul,
          Nat.one_mul]
        omega

/-- The parity of all stripes, by a quotient and a remainder. -/
theorem overhead_eq (striped : code.stripeSize ≠ 0) (size : Nat) :
    code.overhead size = Replication.exactParity code size := by
  obtain ⟨wide, long⟩ := Replication.pos_of_stripeSize striped
  have narrow : code.chunkSize.toNat ≤ code.stripeSize.toNat := by
    rw [toNat_stripeSize] at wide ⊢
    exact Nat.le_mul_of_pos_left _ (Nat.pos_of_mul_pos_right wide)
  unfold overhead stripeParity
  simp only [headD_pieces long, ← toNat_stripeSize]
  exact sum_min_pieces wide narrow code.parity.toNat size

end ErasureCode

namespace Replication

variable {replication : Replication} {code : ErasureCode}

/-- The nodes that a block group takes, however many they are. -/
def nodes : Replication → Nat
  | .ratis factor | .standalone factor => factor.toNat
  | .erasureCoded code => code.data.toNat + code.parity.toNat

/-- The bytes that storage nodes hold beside the copies of an object. -/
def overhead : Replication → Nat → Nat
  | .ratis _, _ | .standalone _, _ => 0
  | .erasureCoded code, size => code.overhead size

/-- The bytes that storage nodes hold for an object: its copies, or the object and the parity of
its stripes. -/
def stored : Replication → Nat → Nat
  | .ratis factor, size | .standalone factor, size => size * factor.toNat
  | .erasureCoded code, size => size + code.overhead size

/-- The stripes of a usable code are not empty. -/
theorem stripeSize_ne_zero_of_usable (usable : (erasureCoded code).Usable) :
    code.stripeSize ≠ 0 := by
  unfold Usable validate at usable
  dsimp only at usable
  split at usable
  · cases usable
  · rename_i filled
    obtain ⟨data, filled⟩ := not_or.1 filled
    have chunk := (not_or.1 filled).2
    intro none
    have product := congrArg UInt64.toNat none
    rw [code.toNat_stripeSize, UInt64.toNat_zero] at product
    rcases Nat.mul_eq_zero.1 product with empty | empty
    · exact data (UInt32.toNat_inj.1 empty)
    · exact chunk (UInt32.toNat_inj.1 empty)

/-- The size by formula is what is stored stripe by stripe. -/
theorem exactSize_of_usable (usable : replication.Usable) (size : Nat) :
    replication.exactSize size = replication.stored size := by
  cases replication with
  | ratis factor => rfl
  | standalone factor => rfl
  | erasureCoded code =>
      have striped := stripeSize_ne_zero_of_usable usable
      unfold exactSize stored
      dsimp only
      rw [if_neg striped, ErasureCode.overhead_eq striped]

/-- The parity by formula is the overhead stripe by stripe. -/
theorem parity_of_usable (usable : replication.Usable) (size : Nat) :
    replication.parity size = replication.overhead size := by
  cases replication with
  | ratis factor => rfl
  | standalone factor => rfl
  | erasureCoded code =>
      have striped := stripeSize_ne_zero_of_usable usable
      unfold parity overhead
      dsimp only
      rw [if_neg striped, ErasureCode.overhead_eq striped]

/-- The nodes of a block group are counted exactly, if they are a half word. -/
theorem requiredNodes_eq (replication : Replication) :
    replication.requiredNodes =
      if replication.nodes < UInt32.size then .ok (.ofNat replication.nodes)
      else .error .add := by
  have copies : ∀ factor : UInt8, (.ok factor.toUInt32 : Except Overflow UInt32) =
      if factor.toNat < UInt32.size then .ok (.ofNat factor.toNat) else .error .add := by
    intro factor
    have few : factor.toNat < UInt32.size := Nat.lt_trans factor.toNat_lt_size (by decide)
    rw [if_pos few, ← UInt8.toNat_toUInt32, UInt32.ofNat_toNat]
  cases replication with
  | ratis factor => exact copies factor
  | standalone factor => exact copies factor
  | erasureCoded code =>
      unfold requiredNodes nodes Word.addHalf
      dsimp only
      rw [UInt32.ofNat_add, UInt32.ofNat_toNat, UInt32.ofNat_toNat]

/-- By a usable replication, the nodes of a block group are counted exactly if they are a half
word, and the size of an object is counted exactly if the parity of its stripes is a word. A size
that is counted is the number of bytes that storage nodes hold, clamped to the largest word. -/
theorem sized_of_usable (usable : replication.Usable) (size : UInt64) :
    (∀ count, replication.requiredNodes = .ok count ↔ count.toNat = replication.nodes) ∧
    ((∃ count, replication.requiredNodes = .ok count) ↔ replication.nodes < UInt32.size) ∧
    (∀ bytes, replication.replicatedSize size = .ok bytes ↔
      replication.overhead size.toNat < UInt64.size ∧
        bytes.toNat = min (replication.stored size.toNat) (UInt64.size - 1)) ∧
    ((∃ bytes, replication.replicatedSize size = .ok bytes) ↔
      replication.overhead size.toNat < UInt64.size) := by
  have sized : (∃ bytes, replication.replicatedSize size = .ok bytes) ↔
      replication.parity size.toNat < UInt64.size := exists_replicatedSize_iff size
  rw [parity_of_usable usable] at sized
  refine ⟨fun count => ?_, ?_, fun bytes => ⟨fun counted => ?_, ?_⟩, sized⟩
  · rw [requiredNodes_eq]
    split
    · rename_i few
      rw [Except.ok.injEq, ← UInt32.toNat_inj, UInt32.toNat_ofNat_of_lt' few]
      exact eq_comm
    · rename_i many
      have small := count.toNat_lt_size
      exact iff_of_false (fun same => by cases same) (by omega)
  · rw [requiredNodes_eq]
    split
    · rename_i few
      exact iff_of_true ⟨_, rfl⟩ few
    · rename_i many
      exact iff_of_false (fun ⟨_, same⟩ => by cases same) many
  · rw [← exactSize_of_usable usable]
    exact ⟨sized.1 ⟨bytes, counted⟩, toNat_replicatedSize counted⟩
  · rintro ⟨fits, same⟩
    obtain ⟨exact, counted⟩ := sized.2 fits
    have known := toNat_replicatedSize counted
    rw [exactSize_of_usable usable, ← same, UInt64.toNat_inj] at known
    rw [counted, known]

/-- An erasure code of five chunks, and an object of two full stripes and a partial one. -/
theorem sized_striped :
    (erasureCoded ⟨.reedSolomon, 3, 2, 4⟩).Usable ∧ pieces 12 31 = [12, 12, 7] ∧
    (erasureCoded ⟨.reedSolomon, 3, 2, 4⟩).requiredNodes = .ok 5 ∧
    (erasureCoded ⟨.reedSolomon, 3, 2, 4⟩).replicatedSize 31 = .ok 55 := by
  have usable : (erasureCoded ⟨.reedSolomon, 3, 2, 4⟩).Usable := by decide
  have stripes : pieces 12 31 = [12, 12, 7] := by
    simp [pieces]
  have overhead : (erasureCoded ⟨.reedSolomon, 3, 2, 4⟩).overhead 31 = 24 :=
    ErasureCode.overhead_eq (stripeSize_ne_zero_of_usable usable) 31
  have stored : (erasureCoded ⟨.reedSolomon, 3, 2, 4⟩).stored 31 = 31 + 24 :=
    congrArg (31 + ·) overhead
  obtain ⟨counted, -, sized, -⟩ := sized_of_usable usable 31
  refine ⟨usable, stripes, (counted 5).2 rfl, (sized 55).2 ?_⟩
  rw [show (31 : UInt64).toNat = 31 from rfl, overhead, stored]
  decide

/-- One data chunk of a byte with two parity chunks is a usable code, but the parity of the largest
object is twice the largest word. A code of as many data chunks as a half word counts is usable,
but its nodes are more. -/
theorem unsized_of_large :
    (erasureCoded ⟨.reedSolomon, 1, 2, 1⟩).Usable ∧
    (erasureCoded ⟨.reedSolomon, 1, 2, 1⟩).replicatedSize 18446744073709551615 = .error .mul ∧
    (erasureCoded ⟨.reedSolomon, 4294967295, 1, 1⟩).Usable ∧
    (erasureCoded ⟨.reedSolomon, 4294967295, 1, 1⟩).requiredNodes = .error .add :=
  ⟨by decide, rfl, by decide, rfl⟩

end Replication

end ObjectLedger
