import Mathlib.Algebra.Group.Nat.Defs
import ObjectLedger.Proofs.Dictionary
import ObjectLedger.Wire.Field

/-! # Wire forms read back what they write

A wire form reads back a value if, whatever bytes follow, reading gives the value and leaves
those bytes (`Wire.Reads`). A lawful form reads back every value whose bytes can be counted
by a word and writes at least one byte for each (`Wire.Lawful`), so a list takes as many bytes
as it has members and its count fits too. Every form of a part of a record is lawful.
-/

namespace ObjectLedger.Wire

variable {α β : Type}

/-- Reading gives back a written value and the bytes after it. -/
def Reads (wire : Wire α) (value : α) : Prop :=
  ∀ rest, wire.get (wire.put value ++ rest) = some (value, rest)

/-- A form that reads back every value whose bytes are counted by a word. -/
structure Lawful (wire : Wire α) : Prop where
  reads : ∀ value, (wire.put value).length < UInt64.size → wire.Reads value
  solid : ∀ value, 0 < (wire.put value).length

theorem length_append_pos {left right : List α} (positive : 0 < left.length) :
    0 < (left ++ right).length := by
  rw [List.length_append]
  exact Nat.add_pos_left positive _

/-- A number takes as many bytes as its width says. -/
theorem length_littleEndian (width n : Nat) : (littleEndian width n).length = width := by
  induction width generalizing n with
  | zero => rfl
  | succ width ih => rw [littleEndian, List.length_cons, ih]

/-- A number that its width can hold is taken back from its digits. -/
theorem takeNumber_littleEndian (width n : Nat) (small : n < 256 ^ width) (rest : List UInt8) :
    takeNumber width (littleEndian width n ++ rest) = some (n, rest) := by
  induction width generalizing n with
  | zero =>
      rw [Nat.pow_zero, Nat.lt_one_iff] at small
      subst small
      rfl
  | succ width ih =>
      have high : n / 256 < 256 ^ width := by
        rw [Nat.pow_succ] at small
        exact Nat.div_lt_of_lt_mul (Nat.mul_comm .. ▸ small)
      have low : (UInt8.ofNat n).toNat = n % 256 := UInt8.toNat_ofNat'
      rw [littleEndian, List.cons_append, takeNumber, ih _ high, Option.map_some, low]
      change some (n % 256 + 256 * (n / 256), rest) = some (n, rest)
      rw [Nat.mod_add_div]

/-- A form of numbers reads back what its width can hold. -/
theorem reads_number {width n : Nat} (small : n < 256 ^ width) : (number width).Reads n :=
  takeNumber_littleEndian width n small

/-- A value written as another is read back when the other is and stands for it. -/
theorem Reads.refine {wire : Wire α} {toWritten : β → α} {ofWritten? : α → Option β} {value : β}
    (reads : wire.Reads (toWritten value)) (stands : ofWritten? (toWritten value) = some value) :
    (wire.refine toWritten ofWritten?).Reads value := by
  intro rest
  simp only [Wire.refine, reads rest, Option.bind_eq_bind, Option.bind_some, stands]
  rfl

/-- A form stays lawful when values are written as others that stand for them. -/
theorem Lawful.refine {wire : Wire α} (lawful : wire.Lawful) {toWritten : β → α}
    {ofWritten? : α → Option β}
    (stands : ∀ value, ofWritten? (toWritten value) = some value) :
    (wire.refine toWritten ofWritten?).Lawful where
  reads value short := (lawful.reads _ short).refine (stands value)
  solid value := lawful.solid (toWritten value)

/-- A form stays lawful along a map with a left inverse. -/
theorem Lawful.map {wire : Wire α} (lawful : wire.Lawful) {toWritten : β → α} {ofWritten : α → β}
    (stands : ∀ value, ofWritten (toWritten value) = value) :
    (wire.map toWritten ofWritten).Lawful :=
  lawful.refine fun value => congrArg some (stands value)

/-- A form of numbers of a fixed width is lawful for values that are numbered below its bound. -/
theorem lawful_number_refine {width : Nat} (positive : 0 < width) {toWritten : β → Nat}
    {ofWritten? : Nat → Option β} (small : ∀ value, toWritten value < 256 ^ width)
    (stands : ∀ value, ofWritten? (toWritten value) = some value) :
    ((number width).refine toWritten ofWritten?).Lawful where
  reads value _ := (reads_number (small value)).refine (stands value)
  solid value := by
    change 0 < (littleEndian width (toWritten value)).length
    rwa [length_littleEndian]

theorem reads_byte (value : UInt8) : byte.Reads value :=
  (reads_number value.toNat_lt).refine (by simp)

theorem reads_half (value : UInt32) : half.Reads value :=
  (reads_number value.toNat_lt).refine (by simp)

theorem reads_word (value : UInt64) : word.Reads value :=
  (reads_number value.toNat_lt).refine (by simp)

theorem lawful_byte : byte.Lawful :=
  lawful_number_refine (by decide) UInt8.toNat_lt fun value => by simp

theorem lawful_quarter : quarter.Lawful :=
  lawful_number_refine (by decide) UInt16.toNat_lt fun value => by simp

theorem lawful_half : half.Lawful :=
  lawful_number_refine (by decide) UInt32.toNat_lt fun value => by simp

theorem lawful_word : word.Lawful :=
  lawful_number_refine (by decide) UInt64.toNat_lt fun value => by simp

/-- Signed numbers are read back through the words that stand for them. -/
theorem lawful_signed : signed.Lawful :=
  lawful_word.map fun _ => by simp

/-- Truth values are read back from the bytes zero and one. -/
theorem lawful_truth : truth.Lawful :=
  lawful_byte.refine fun value => by cases value <;> rfl

/-- A pair is read back if both of its parts are. -/
theorem Reads.pair {first : Wire α} {second : Wire β} {value : α × β}
    (left : first.Reads value.1) (right : second.Reads value.2) :
    (first.pair second).Reads value := by
  intro rest
  simp only [Wire.pair, List.append_assoc, left _, right _, Option.bind_eq_bind,
    Option.bind_some]
  rfl

/-- Forms that are written one after the other are lawful if both are. -/
theorem Lawful.pair {first : Wire α} {second : Wire β} (left : first.Lawful)
    (right : second.Lawful) : (first.pair second).Lawful where
  reads value short := by
    have total : (first.put value.1).length + (second.put value.2).length < UInt64.size := by
      rwa [← List.length_append]
    exact (left.reads _ (by omega)).pair (right.reads _ (by omega))
  solid value := by
    exact length_append_pos (left.solid value.1)

/-- A value that may be missing is read back from a mark and, if there, its own form. -/
theorem Lawful.optional {wire : Wire α} (lawful : wire.Lawful) : wire.optional.Lawful where
  reads value short := by
    intro rest
    have mark := fun there => lawful_truth.reads there (by cases there <;> decide)
    cases value with
    | none =>
        simp only [Wire.optional, mark false _, Option.bind_eq_bind, Option.bind_some]
        rfl
    | some value =>
        have within : (wire.put value).length < UInt64.size := by
          refine Nat.lt_of_le_of_lt ?_ short
          change _ ≤ (truth.put true ++ wire.put value).length
          rw [List.length_append]
          omega
        simp only [Wire.optional, List.append_assoc, mark true _, lawful.reads _ within _,
          Option.bind_eq_bind, Option.bind_some, ↓reduceIte]
        rfl
  solid value := by
    have mark : ∀ there, 0 < (truth.put there).length := lawful_truth.solid
    cases value with
    | none => exact mark false
    | some value =>
        exact length_append_pos (mark true)

/-- As many bytes as were written are taken back. -/
theorem takeBytes_append (value rest : List UInt8) :
    takeBytes value.length (value ++ rest) = some (value, rest) := by
  rw [takeBytes, if_pos (by rw [List.length_append]; omega), List.take_left, List.drop_left]

theorem reads_count {n : Nat} (small : n < UInt64.size) : count.Reads n :=
  show (number 8).Reads n from reads_number small

theorem length_put_count (n : Nat) : (count.put n).length = 8 := length_littleEndian 8 n

/-- Bytes behind their number are read back. -/
theorem lawful_bytes : bytes.Lawful where
  reads value short := by
    intro rest
    have within : value.length < UInt64.size := by
      refine Nat.lt_of_le_of_lt ?_ short
      change _ ≤ (count.put value.length ++ value).length
      rw [List.length_append]
      omega
    simp only [Wire.bytes, List.append_assoc, reads_count within _, Option.bind_eq_bind,
      Option.bind_some, takeBytes_append]
  solid value := by
    exact length_append_pos (length_put_count value.length ▸ (by decide))

/-- Bytes of a fixed number are read back without it. -/
theorem reads_exactly {size : Nat} (value : Vector UInt8 size) : (exactly size).Reads value := by
  intro rest
  have taken : takeBytes size (value.toList ++ rest) = some (value.toList, rest) := by
    have known := takeBytes_append value.toList rest
    rwa [Vector.length_toList] at known
  simp only [exactly, taken, Option.bind_eq_bind, Option.bind_some, Vector.length_toList,
    ↓reduceDIte]
  rfl

theorem lawful_counted (size : Nat) : (counted size).Lawful :=
  lawful_bytes.refine fun value => by
    rw [dif_pos (Vector.length_toList ..)]
    rfl

/-- A text is read back from its bytes. -/
theorem lawful_text : text.Lawful :=
  lawful_bytes.refine fun value => by
    have valid : value.toByteArray.IsValidUTF8 := value.isValidUTF8
    simp only [String.toUTF8_eq_toByteArray, Array.toArray_toList, String.fromUTF8?]
    rw [dif_pos valid]
    rfl

/-- Members that are read back one by one are read back one after the other. -/
theorem takeMany_flatMap {wire : Wire α} (values : List α)
    (reads : ∀ value ∈ values, wire.Reads value) (rest : List UInt8) :
    takeMany wire values.length (values.flatMap wire.put ++ rest) = some (values, rest) := by
  induction values with
  | nil => rfl
  | cons value values ih =>
      have others := ih fun other member => reads other (List.mem_cons_of_mem _ member)
      simp only [List.length_cons, takeMany, List.flatMap_cons, List.append_assoc,
        reads value List.mem_cons_self _, Option.bind_eq_bind, Option.bind_some, others]
      rfl

/-- As every member takes a byte, there are no more members than bytes. -/
theorem length_le_flatMap {wire : Wire α} (solid : ∀ value, 0 < (wire.put value).length)
    (values : List α) : values.length ≤ (values.flatMap wire.put).length := by
  induction values with
  | nil => exact Nat.le_refl 0
  | cons value values ih =>
      have positive := solid value
      rw [List.flatMap_cons, List.length_append, List.length_cons]
      omega

/-- A member takes no more bytes than the whole list. -/
theorem length_put_le_flatMap {wire : Wire α} {value : α} {values : List α}
    (member : value ∈ values) : (wire.put value).length ≤ (values.flatMap wire.put).length := by
  induction values with
  | nil => cases member
  | cons head values ih =>
      rw [List.flatMap_cons, List.length_append]
      rcases List.mem_cons.1 member with rfl | later
      · omega
      · have below := ih later
        omega

/-- A list behind its number is lawful if the form of its members is. -/
theorem Lawful.list {wire : Wire α} (lawful : wire.Lawful) : wire.list.Lawful where
  reads values short := by
    intro rest
    have total : (values.flatMap wire.put).length < UInt64.size := by
      refine Nat.lt_of_le_of_lt ?_ short
      change _ ≤ (count.put values.length ++ values.flatMap wire.put).length
      rw [List.length_append]
      omega
    have counted := Nat.lt_of_le_of_lt (length_le_flatMap lawful.solid values) total
    have each : ∀ value ∈ values, wire.Reads value := fun value member =>
      lawful.reads value (Nat.lt_of_le_of_lt (length_put_le_flatMap member) total)
    simp only [Wire.list, List.append_assoc, reads_count counted _, Option.bind_eq_bind,
      Option.bind_some, takeMany_flatMap values each]
  solid values := by
    exact length_append_pos (length_put_count values.length ▸ (by decide))

/-- A dictionary is read back from its entries, whose order makes it unique. -/
theorem Lawful.dictionary {wire : Wire α} (lawful : wire.Lawful) : (dictionary wire).Lawful :=
  (lawful_text.pair lawful).list.map Dictionary.ofList_entries

/-- One of a few values is read back if it is among them. -/
theorem reads_oneOf [DecidableEq α] {values : List α} (few : values.length < UInt32.size)
    {value : α} (member : value ∈ values) : (oneOf values).Reads value :=
  (reads_half _).refine (by
    have place := List.idxOf_lt_length_of_mem member
    rw [UInt32.toNat_ofNat_of_lt' (Nat.lt_trans place few), List.getElem?_eq_getElem place,
      List.getElem_idxOf])

/-- A choice among all values is read back from its place among them. -/
theorem lawful_oneOf [DecidableEq α] (values : List α) (few : values.length < UInt32.size)
    (every : ∀ value, value ∈ values) : (oneOf values).Lawful where
  reads value _ := reads_oneOf few (every value)
  solid _ := lawful_half.solid _

/-! ## Parts of records -/

theorem lawful_erasureCodec : (oneOf [ErasureCodec.reedSolomon, .xor]).Lawful :=
  lawful_oneOf _ (by decide) fun value => by cases value <;> decide

theorem lawful_crcKind : crcKind.Lawful :=
  lawful_oneOf _ (by decide) fun value => by cases value <;> decide

theorem lawful_cipherSuite : cipherSuite.Lawful :=
  lawful_oneOf _ (by decide) fun value => by cases value <;> decide

theorem lawful_medium : medium.Lawful :=
  lawful_oneOf _ (by decide) fun value => by cases value <;> decide

theorem lawful_layout : layout.Lawful :=
  lawful_oneOf _ (by decide) fun value => by cases value <;> decide

/-- Every kind of replication is read back from its tag. -/
theorem lawful_replication : replication.Lawful where
  reads value _ := by
    intro rest
    cases value with
    | ratis factor =>
        simp only [Wire.replication, List.append_assoc, reads_half 0 _, Option.bind_eq_bind,
          Option.bind_some]
        change (byte.get (byte.put factor ++ rest)).bind _ = _
        rw [reads_byte factor rest]
        rfl
    | standalone factor =>
        simp only [Wire.replication, List.append_assoc, reads_half 1 _, Option.bind_eq_bind,
          Option.bind_some]
        change (byte.get (byte.put factor ++ rest)).bind _ = _
        rw [reads_byte factor rest]
        rfl
    | erasureCoded code =>
        simp only [Wire.replication, List.append_assoc, reads_half 2 _, Option.bind_eq_bind,
          Option.bind_some]
        change ((oneOf [ErasureCodec.reedSolomon, .xor]).get _).bind _ = _
        rw [lawful_erasureCodec.reads code.codec (by cases code.codec <;> decide)]
        simp only [Option.bind_some, reads_half _ _]
        rfl
  solid value := by
    cases value with
    | ratis factor => exact length_append_pos (lawful_half.solid 0)
    | standalone factor => exact length_append_pos (lawful_half.solid 1)
    | erasureCoded code =>
        exact length_append_pos (length_append_pos (length_append_pos (length_append_pos
          (lawful_half.solid 2))))

/-- Both kinds of checksums are read back from their tags. -/
theorem lawful_checksum : checksum.Lawful where
  reads value _ := by
    intro rest
    cases value with
    | digest crc bytesPerCrc crcPerBlock md5 =>
        simp only [Wire.checksum, List.append_assoc, reads_half 0 _, Option.bind_eq_bind,
          Option.bind_some]
        change (crcKind.get _).bind _ = _
        rw [lawful_crcKind.reads crc (by cases crc <;> decide)]
        simp only [Option.bind_some, reads_half _ _, reads_word _ _, reads_exactly _ _]
        rfl
    | composite crc bytesPerCrc check =>
        simp only [Wire.checksum, List.append_assoc, reads_half 1 _, Option.bind_eq_bind,
          Option.bind_some]
        change (crcKind.get _).bind _ = _
        rw [lawful_crcKind.reads crc (by cases crc <;> decide)]
        simp only [Option.bind_some, reads_half _ _]
        rfl
  solid value := by
    cases value with
    | digest crc bytesPerCrc crcPerBlock md5 =>
        exact length_append_pos (length_append_pos (length_append_pos (length_append_pos
          (lawful_half.solid 0))))
    | composite crc bytesPerCrc check =>
        exact length_append_pos (length_append_pos (length_append_pos (lawful_half.solid 1)))

theorem lawful_keyEncryption : keyEncryption.Lawful :=
  (lawful_cipherSuite.pair <| lawful_bytes.pair <| lawful_bytes.pair <|
    lawful_text.pair lawful_text).map fun _ => rfl

theorem lawful_bucketEncryption : bucketEncryption.Lawful :=
  (lawful_text.pair lawful_cipherSuite).map fun _ => rfl

/-- An entry of an access list is read back from subject, rights and scope. -/
theorem lawful_acl : acl.Lawful :=
  ((lawful_oneOf _ (by decide) fun kind => by cases kind <;> decide).pair <| lawful_text.pair <|
    lawful_quarter.pair <| lawful_oneOf _ (by decide) fun scope => by cases scope <;> decide).map
      fun _ => rfl

/-- The placement of a block is read back, members and leader included. -/
theorem lawful_pipeline : pipeline.Lawful :=
  ((lawful_counted 16).pair <| lawful_text.list.pair lawful_text.optional).map fun _ => rfl

/-- The fields of a block are read back, those that are missing included. -/
theorem lawful_blockForm : blockForm.Lawful :=
  (lawful_word.optional.pair <| lawful_word.optional.pair <| lawful_word.optional.pair <|
    lawful_word.optional.pair <| lawful_word.optional.pair lawful_pipeline.optional).map
      fun _ => rfl

/-- The fields of a group are read back with those of its blocks. -/
theorem lawful_groupForm : groupForm.Lawful :=
  (lawful_word.optional.pair <| lawful_blockForm.list.pair lawful_truth.optional).map
    fun _ => rfl

end ObjectLedger.Wire
