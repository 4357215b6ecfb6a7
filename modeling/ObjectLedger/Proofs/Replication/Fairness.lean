import Mathlib.Data.Nat.ModEq
import ObjectLedger.Proofs.Replication.Stripes

/-! # Fair charges

The parity of an erasure-coded object is as long as what lies in the first chunks of its stripes,
once for each parity chunk (`Replication.parity_eq`). From stripe to stripe that grows for a chunk
and then stands still. So a larger object never has less of it (`firstChunks_mono`), and objects
kept together never have more of it than they have apart (`firstChunks_add_le`). A replicated size
is a fair charge for the same reason (`Replication.fair_sizes`).
-/

namespace ObjectLedger

/-- The bytes of an object that lie in the first chunk of their stripe: a chunk for each full
stripe, and what a partial one has of its first chunk. -/
def firstChunks (chunk stripe size : Nat) : Nat :=
  size / stripe * chunk + min chunk (size % stripe)

section firstChunks

variable {chunk stripe size more : Nat}

/-- A larger object has no fewer bytes in the first chunks of its stripes. -/
theorem firstChunks_mono (less : size ≤ more) :
    firstChunks chunk stripe size ≤ firstChunks chunk stripe more := by
  unfold firstChunks
  by_cases same : size / stripe = more / stripe
  · have part : size % stripe ≤ more % stripe := by
      have smaller := Nat.div_add_mod size stripe
      have larger := Nat.div_add_mod more stripe
      rw [same] at smaller
      omega
    rw [same]
    omega
  · -- The larger object has a full stripe where the smaller one has at most a part of one.
    have stripes : size / stripe + 1 ≤ more / stripe :=
      Nat.lt_of_le_of_ne (Nat.div_le_div_right less) same
    have chunks := Nat.mul_le_mul_right chunk stripes
    rw [Nat.add_mul, Nat.one_mul] at chunks
    omega

/-- The first chunks of the stripes hold no more than the object. -/
theorem firstChunks_le (narrow : chunk ≤ stripe) (size : Nat) :
    firstChunks chunk stripe size ≤ size := by
  unfold firstChunks
  have whole := Nat.div_add_mod size stripe
  have chunks := Nat.mul_le_mul_left (size / stripe) narrow
  rw [Nat.mul_comm stripe] at whole
  omega

/-- Objects kept together have no more bytes in first chunks than they have apart. -/
theorem firstChunks_add_le (narrow : chunk ≤ stripe) (size more : Nat) :
    firstChunks chunk stripe (size + more) ≤
      firstChunks chunk stripe size + firstChunks chunk stripe more := by
  unfold firstChunks
  by_cases within : size % stripe + more % stripe < stripe
  · rw [Nat.add_div_eq_of_add_mod_lt within, Nat.add_mod_of_add_mod_lt within, Nat.add_mul]
    omega
  by_cases none : stripe = 0
  · subst none
    rw [Nat.eq_zero_of_le_zero narrow]
    simp only [Nat.mul_zero, Nat.zero_min, Nat.add_zero, Nat.le_refl]
  · -- The parts of both fill a stripe. What is over is less than either of them, and either of
    -- them is longer than what the other one leaves of a stripe.
    have filled := Nat.not_lt.1 within
    have surplus := Nat.add_mod_add_of_le_add_mod filled
    have wide := Nat.pos_of_ne_zero none
    have first := Nat.mod_lt size wide
    have second := Nat.mod_lt more wide
    rw [Nat.add_div_eq_of_le_mod_add_mod filled wide, Nat.add_mul, Nat.add_mul, Nat.one_mul]
    omega

/-- Of full stripes, one chunk in as many as a stripe has is a first one. -/
theorem firstChunks_mul_of_dvd {chunks : Nat} (whole : chunks * chunk ∣ size) :
    firstChunks chunk (chunks * chunk) size * chunks = size := by
  unfold firstChunks
  rw [Nat.mod_eq_zero_of_dvd whole, Nat.min_zero, Nat.add_zero, Nat.mul_assoc, Nat.mul_comm chunk,
    Nat.div_mul_cancel whole]

end firstChunks

namespace ErasureCode

/-- The length of a chunk, if stripes have chunks. -/
def stripedChunk (code : ErasureCode) : Nat := min code.chunkSize.toNat code.stripeSize.toNat

theorem stripedChunk_le (code : ErasureCode) : code.stripedChunk ≤ code.stripeSize.toNat :=
  Nat.min_le_right ..

/-- Where there are stripes, their chunks have the size of the code. -/
theorem stripedChunk_eq {code : ErasureCode} (striped : code.stripeSize ≠ 0) :
    code.stripedChunk = code.chunkSize.toNat := by
  have wide := (Replication.pos_of_stripeSize striped).1
  rw [code.toNat_stripeSize] at wide
  apply Nat.min_eq_left
  rw [code.toNat_stripeSize]
  exact Nat.le_mul_of_pos_left _ (Nat.pos_of_mul_pos_right wide)

end ErasureCode

namespace Replication

variable {replication : Replication} {code : ErasureCode}

/-! ## The bytes that storage nodes hold -/

/-- The parity of an object is counted by the first chunks of its stripes. -/
theorem parity_eq (code : ErasureCode) (size : Nat) :
    (erasureCoded code).parity size =
      firstChunks code.stripedChunk code.stripeSize.toNat size * code.parity.toNat := by
  unfold parity
  dsimp only
  split
  · rename_i empty
    have none : code.stripedChunk = 0 := by
      unfold ErasureCode.stripedChunk
      rw [empty, UInt64.toNat_zero, Nat.min_zero]
    unfold firstChunks
    rw [none, Nat.mul_zero, Nat.zero_min, Nat.zero_add, Nat.zero_mul]
  · rename_i striped
    unfold exactParity firstChunks
    rw [ErasureCode.stripedChunk_eq striped, Nat.add_mul, Nat.mul_right_comm]

/-- What an object takes is its size and its parity. -/
theorem exactSize_eq (code : ErasureCode) (size : Nat) :
    (erasureCoded code).exactSize size = size + (erasureCoded code).parity size := by
  unfold exactSize parity
  dsimp only
  split
  · rfl
  · rfl

theorem parity_mono (replication : Replication) {size more : Nat} (less : size ≤ more) :
    replication.parity size ≤ replication.parity more := by
  cases replication with
  | ratis factor => exact Nat.le_refl 0
  | standalone factor => exact Nat.le_refl 0
  | erasureCoded code =>
      rw [parity_eq, parity_eq]
      exact Nat.mul_le_mul_right _ (firstChunks_mono less)

/-- A larger object takes no less space. -/
theorem exactSize_mono (replication : Replication) {size more : Nat} (less : size ≤ more) :
    replication.exactSize size ≤ replication.exactSize more := by
  cases replication with
  | ratis factor => exact Nat.mul_le_mul_right _ less
  | standalone factor => exact Nat.mul_le_mul_right _ less
  | erasureCoded code =>
      rw [exactSize_eq, exactSize_eq]
      exact Nat.add_le_add less ((erasureCoded code).parity_mono less)

/-- Objects kept together take no more than they do apart. -/
theorem exactSize_add_le (replication : Replication) (size more : Nat) :
    replication.exactSize (size + more) ≤
      replication.exactSize size + replication.exactSize more := by
  cases replication with
  | ratis factor => exact Nat.le_of_eq (Nat.add_mul ..)
  | standalone factor => exact Nat.le_of_eq (Nat.add_mul ..)
  | erasureCoded code =>
      have together := Nat.mul_le_mul_right code.parity.toNat
        (firstChunks_add_le code.stripedChunk_le size more)
      rw [Nat.add_mul] at together
      simp only [exactSize_eq, parity_eq]
      omega

/-- Storage nodes hold no more than an object and a copy of it for each parity chunk. -/
theorem exactSize_le (code : ErasureCode) (size : Nat) :
    (erasureCoded code).exactSize size ≤ size * (1 + code.parity.toNat) := by
  rw [exactSize_eq, parity_eq, Nat.mul_add, Nat.mul_one]
  apply Nat.add_le_add_left
  exact Nat.mul_le_mul_right _ (firstChunks_le code.stripedChunk_le size)

/-- Storage nodes hold full stripes in the proportion of all chunks to data chunks. -/
theorem exactSize_mul_of_whole {size : Nat} (whole : (erasureCoded code).Whole size) :
    (erasureCoded code).exactSize size * code.data.toNat =
      size * (code.data.toNat + code.parity.toNat) := by
  change code.stripeSize.toNat ∣ size at whole
  by_cases empty : code.stripeSize = 0
  · rw [empty] at whole
    rw [Nat.eq_zero_of_zero_dvd whole, exactSize_zero, Nat.zero_mul, Nat.zero_mul]
  · rw [exactSize_eq, parity_eq, ErasureCode.stripedChunk_eq empty, Nat.add_mul,
      Nat.mul_right_comm, Nat.mul_add]
    rw [code.toNat_stripeSize] at whole ⊢
    rw [firstChunks_mul_of_dvd whole]

/-- Of full stripes, storage nodes hold as much more as a stripe has more chunks than data. -/
theorem exactSize_of_whole {size : Nat} (whole : (erasureCoded code).Whole size) :
    (erasureCoded code).exactSize size =
      size * (code.data.toNat + code.parity.toNat) / code.data.toNat := by
  by_cases empty : code.stripeSize = 0
  · change code.stripeSize.toNat ∣ size at whole
    rw [empty] at whole
    rw [Nat.eq_zero_of_zero_dvd whole, exactSize_zero, Nat.zero_mul, Nat.zero_div]
  · have wide := (pos_of_stripeSize empty).1
    rw [code.toNat_stripeSize] at wide
    rw [← exactSize_mul_of_whole whole, Nat.mul_div_cancel _ (Nat.pos_of_mul_pos_right wide)]

/-! ## Sizes that can be counted -/

/-- A smaller object can be counted wherever a larger one can, and is charged no more. -/
theorem replicatedSize_mono {small large most : UInt64} (less : small ≤ large)
    (counted : replication.replicatedSize large = .ok most) :
    ∃ held, replication.replicatedSize small = .ok held ∧ held ≤ most := by
  have smaller := UInt64.le_iff_toNat_le.1 less
  have fits := (exists_replicatedSize_iff large).1 ⟨most, counted⟩
  obtain ⟨held, sized⟩ := (exists_replicatedSize_iff small).2
    (Nat.lt_of_le_of_lt (replication.parity_mono smaller) fits)
  refine ⟨held, sized, UInt64.le_iff_toNat_le.2 ?_⟩
  have grows := replication.exactSize_mono smaller
  rw [toNat_replicatedSize sized, toNat_replicatedSize counted]
  omega

/-- An object that can be counted is charged no more than any two pieces of it. -/
theorem replicatedSize_add_le {first second both whole : UInt64}
    (joined : Word.add first second = .ok both)
    (counted : replication.replicatedSize both = .ok whole) :
    ∃ left right, replication.replicatedSize first = .ok left ∧
      replication.replicatedSize second = .ok right ∧
      whole.toNat ≤ left.toNat + right.toNat := by
  have length := Word.add_ok_iff.1 joined
  have front : first ≤ both := UInt64.le_iff_toNat_le.2 (by omega)
  have back : second ≤ both := UInt64.le_iff_toNat_le.2 (by omega)
  obtain ⟨left, leftSized, -⟩ := replicatedSize_mono front counted
  obtain ⟨right, rightSized, -⟩ := replicatedSize_mono back counted
  refine ⟨left, right, leftSized, rightSized, ?_⟩
  have pieces := replication.exactSize_add_le first.toNat second.toNat
  rw [toNat_replicatedSize counted, toNat_replicatedSize leftSized,
    toNat_replicatedSize rightSized, ← length]
  omega

/-- An erasure-coded object is charged at least its own bytes, and at most those of a copy for each
parity chunk besides. -/
theorem replicatedSize_bounds {size held : UInt64}
    (counted : (erasureCoded code).replicatedSize size = .ok held) :
    size ≤ held ∧ held.toNat ≤ size.toNat * (1 + code.parity.toNat) := by
  have bytes := toNat_replicatedSize counted
  have parts := exactSize_eq code size.toNat
  have most := exactSize_le code size.toNat
  have word := size.toNat_lt_size
  rw [UInt64.le_iff_toNat_le]
  omega

/-- A replicated size that can be counted is a fair charge. It never falls as the object grows.
By an erasure code it lies between the object and a copy of it for each parity chunk besides, and
full stripes are charged in the proportion of all chunks to data chunks, up to the largest word. An
object is never charged more than two pieces of it. -/
theorem fair_sizes (replication : Replication) :
    (∀ small large most : UInt64, small ≤ large → replication.replicatedSize large = .ok most →
      ∃ held, replication.replicatedSize small = .ok held ∧ held ≤ most) ∧
    (∀ code, replication = .erasureCoded code → ∀ size held : UInt64,
      replication.replicatedSize size = .ok held →
        size ≤ held ∧ held.toNat ≤ size.toNat * (1 + code.parity.toNat) ∧
        (code.stripeSize.toNat ∣ size.toNat → held.toNat =
          min (size.toNat * (code.data.toNat + code.parity.toNat) / code.data.toNat)
            (UInt64.size - 1))) ∧
    (∀ first second both whole : UInt64, Word.add first second = .ok both →
      replication.replicatedSize both = .ok whole →
        ∃ left right, replication.replicatedSize first = .ok left ∧
          replication.replicatedSize second = .ok right ∧
          whole.toNat ≤ left.toNat + right.toNat) := by
  refine ⟨?_, ?_, ?_⟩
  · intro small large most less counted
    exact replicatedSize_mono less counted
  · intro code coded size held counted
    subst coded
    obtain ⟨least, most⟩ := replicatedSize_bounds counted
    refine ⟨least, most, ?_⟩
    intro whole
    rw [toNat_replicatedSize counted, exactSize_of_whole whole]
  · intro first second both whole joined counted
    exact replicatedSize_add_le joined counted

/-- Three data chunks of four bytes with two parity chunks. Two full stripes are charged for five
chunks in place of three, and ten bytes are charged less than two pieces of five. -/
theorem fair_sizes_striped :
    (erasureCoded ⟨.reedSolomon, 3, 2, 4⟩).replicatedSize 24 = .ok 40 ∧
    (∃ held, (erasureCoded ⟨.reedSolomon, 3, 2, 4⟩).replicatedSize 10 = .ok held ∧ held ≤ 40) ∧
    (40 : UInt64).toNat = min (24 * (3 + 2) / 3) (UInt64.size - 1) ∧
    Word.add 5 5 = .ok 10 ∧
    (erasureCoded ⟨.reedSolomon, 3, 2, 4⟩).replicatedSize 10 = .ok 18 ∧
    ∃ left right, (erasureCoded ⟨.reedSolomon, 3, 2, 4⟩).replicatedSize 5 = .ok left ∧
      (erasureCoded ⟨.reedSolomon, 3, 2, 4⟩).replicatedSize 5 = .ok right ∧
      (18 : UInt64).toNat ≤ left.toNat + right.toNat := by
  obtain ⟨grows, between, pieces⟩ := fair_sizes (erasureCoded ⟨.reedSolomon, 3, 2, 4⟩)
  have stripes : (erasureCoded ⟨.reedSolomon, 3, 2, 4⟩).replicatedSize 24 = .ok 40 := rfl
  have part : (erasureCoded ⟨.reedSolomon, 3, 2, 4⟩).replicatedSize 10 = .ok 18 := rfl
  have joined : Word.add 5 5 = .ok 10 := rfl
  have whole := (between _ rfl 24 40 stripes).2.2 (by decide)
  exact ⟨stripes, grows 10 24 40 (by decide) stripes, whole, joined, part,
    pieces 5 5 10 18 joined part⟩

end Replication

end ObjectLedger
