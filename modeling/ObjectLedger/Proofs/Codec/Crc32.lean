import ObjectLedger.Frame.Crc32

/-! # The check value notices a changed byte

No step of the register forgets anything. The polynomial has its highest bit set and a shift clears
that bit, so the highest bit after a step is the lowest one before it, and the step can be undone
(`Crc32.shift_inj`). Texts that differ in one byte therefore have different check values, however
far from their end they differ (`Crc32.eq_of_ofBytes`).
-/

namespace ObjectLedger.Crc32

/-- A register is masked to one exactly if its lowest bit is set. -/
theorem and_one_eq_one_iff (register : UInt32) :
    register &&& 1 = 1 ↔ register.toBitVec.getLsbD 0 = true := by
  have lowest : (register &&& 1).toBitVec =
      (BitVec.ofBool (register.toBitVec.getLsbD 0)).setWidth 32 := by
    rw [UInt32.toBitVec_and]
    exact BitVec.and_one_eq_setWidth_ofBool_getLsbD
  rw [← UInt32.toBitVec_inj, lowest]
  cases register.toBitVec.getLsbD 0 <;> decide

/-- A step moves the bits down, and adds the polynomial if it drops a one. -/
theorem getLsbD_shift (register : UInt32) (place : Nat) :
    (shift register).toBitVec.getLsbD place =
      (register.toBitVec.getLsbD (place + 1) ^^
        (register.toBitVec.getLsbD 0 && polynomial.toBitVec.getLsbD place)) := by
  have moved : (register >>> 1).toBitVec.getLsbD place =
      register.toBitVec.getLsbD (place + 1) := by
    rw [UInt32.toBitVec_shiftRight, Nat.add_comm]
    exact BitVec.getLsbD_ushiftRight ..
  unfold shift
  split
  · rename_i dropped
    rw [UInt32.toBitVec_xor, BitVec.getLsbD_xor, moved, (and_one_eq_one_iff register).1 dropped,
      Bool.true_and]
  · rename_i dropped
    rw [moved, Bool.eq_false_iff.2 (mt (and_one_eq_one_iff register).2 dropped), Bool.false_and,
      Bool.xor_false]

/-- A step can be undone. -/
theorem shift_inj {left right : UInt32} (same : shift left = shift right) : left = right := by
  have bits : ∀ place, (shift left).toBitVec.getLsbD place =
      (shift right).toBitVec.getLsbD place := fun place => by rw [same]
  simp only [getLsbD_shift] at bits
  have lowest : left.toBitVec.getLsbD 0 = right.toBitVec.getLsbD 0 := by
    have highest := bits 31
    rw [BitVec.getLsbD_of_ge _ _ (Nat.le_refl 32), BitVec.getLsbD_of_ge _ _ (Nat.le_refl 32),
      show polynomial.toBitVec.getLsbD 31 = true by decide] at highest
    simpa using highest
  apply UInt32.toBitVec_inj.1
  apply BitVec.eq_of_getLsbD_eq
  intro place _
  cases place with
  | zero => exact lowest
  | succ place =>
      have moved := bits place
      rw [lowest] at moved
      exact Bool.xor_left_inj.1 moved

/-- The register and the byte that it absorbed determine each other. -/
theorem absorb_inj {register other : UInt32} {byte new : UInt8}
    (same : absorb register byte = absorb other new) :
    register ^^^ byte.toUInt32 = other ^^^ new.toUInt32 := by
  unfold absorb at same
  iterate 8 replace same := shift_inj same
  exact same

/-- Absorbing the same bytes keeps different registers apart. -/
theorem foldl_absorb_inj (bytes : List UInt8) {left right : UInt32}
    (same : bytes.foldl absorb left = bytes.foldl absorb right) : left = right := by
  induction bytes generalizing left right with
  | nil => exact same
  | cons byte bytes ih => exact (UInt32.xor_left_inj _).1 (absorb_inj (ih same))

/-- A byte is determined by the check value and all other bytes. -/
theorem eq_of_ofBytes {front back : List UInt8} {old new : UInt8}
    (same : ofBytes (front ++ old :: back) = ofBytes (front ++ new :: back)) : old = new := by
  have registers := UInt32.not_inj.1 same
  rw [List.foldl_append, List.foldl_append, List.foldl_cons, List.foldl_cons] at registers
  have absorbed := absorb_inj (foldl_absorb_inj back registers)
  exact UInt8.toUInt32_inj.1 ((UInt32.xor_right_inj _).1 absorbed)

end ObjectLedger.Crc32
