import ObjectLedger.Proofs.Bucket.RoundTrip
import ObjectLedger.Proofs.Codec.RoundTrip

/-! # Decoded records are well formed

The fields of a frame can be any: some are missing, entries repeat, groups come in any order and
carry the marks of other versions. What is decoded from them is well formed all the same, and so
it is read back after it was encoded again (`decoded_wellFormed`). Repeated entries are merged,
and the marks are set anew; everything else that is wrong with the fields is an error. No record
comes out of a frame that could not have been made without one.
-/

namespace ObjectLedger

/-- Entries for distinct subjects are pairwise not equivalent. -/
theorem AclSet.Distinct.apart {set : AclSet} (distinct : set.Distinct) :
    set.entries.Pairwise fun entry other => entry.isEquivalent other = false := by
  refine (List.pairwise_map.1 distinct).imp fun differ => ?_
  rw [Acl.isEquivalent, beq_eq_false_iff_ne]
  exact differ

namespace KeyRecord

/-- What decoding makes sure of in a key. -/
structure Decoded (key : KeyRecord) : Prop extends key.WellFormed where
  /-- It could have been made without a frame. -/
  made : key.Made
  /-- No two entries are for the same subject. -/
  apart : key.acls.entries.Pairwise fun entry other => entry.isEquivalent other = false
  fileName : key.fileName = lastComponent key.name

/-- A key that is read back from its frame, stored without the placement of its blocks or sent
as it is, if its fields fit into one. -/
structure ReadsBack (key : KeyRecord) : Prop where
  stored : (Wire.keyForm.put key.storedForm).length ≤ Frame.payloadLimit →
    ∃ bytes, key.persist = .ok bytes ∧ ∀ now, ofPersisted bytes now =
      .ok { key with history := key.history.map VersionGroup.withoutPipelines }
  sent : (Wire.keyForm.put (key.sentForm {})).length ≤ Frame.payloadLimit →
    ∃ bytes, key.send {} = .ok bytes ∧ ∀ now, ofSent bytes now = .ok key

/-- Whatever fields a key is built from, the key is well formed. -/
theorem decoded_of_record {form : KeyForm} {now : UInt64} {key : KeyRecord}
    (read : form.record now = .ok key) : key.Decoded := by
  have made := KeyForm.made_of_record read
  obtain ⟨history, groups, built⟩ := bind_eq_ok_iff.1 read
  have stamped : ∀ group ∈ history, group.Stamped := fun group member =>
    (GroupForm.made_of_groups groups group member).stamped
  obtain ⟨wellFormed, -, -, name, fileName, -⟩ := KeyDraft.build_eq_ok stamped built
  refine ⟨wellFormed, made, wellFormed.acls.apart, ?_⟩
  rw [fileName, show form.name = some key.name from name]
  rfl

/-- A key that is read from a stored frame is well formed. -/
theorem decoded_of_ofPersisted {bytes : List UInt8} {now : UInt64} {key : KeyRecord}
    (read : ofPersisted bytes now = .ok key) : key.Decoded := by
  obtain ⟨form, -, read⟩ := bind_eq_ok_iff.1 read
  exact decoded_of_record (mapError_eq_ok_iff.1 read)

/-- A key that is read from a sent frame is well formed. -/
theorem decoded_of_ofSent {bytes : List UInt8} {now : UInt64} {key : KeyRecord}
    (read : ofSent bytes now = .ok key) : key.Decoded := by
  obtain ⟨form, -, read⟩ := bind_eq_ok_iff.1 read
  obtain ⟨-, -, read⟩ := bind_eq_ok_iff.1 read
  exact decoded_of_record (mapError_eq_ok_iff.1 read)

/-- A well-formed key under its own file name survives another round trip. -/
theorem Decoded.readsBack {key : KeyRecord} (decoded : key.Decoded) : key.ReadsBack where
  stored fits := by
    obtain ⟨bytes, framed⟩ := Frame.wrap_of_length_le .persistedKey fits
    refine ⟨bytes, framed, fun now => ?_⟩
    rw [ofPersisted_of_persist decoded.toWellFormed framed now, asStored, ← decoded.fileName]
  sent fits := by
    obtain ⟨bytes, framed⟩ := Frame.wrap_of_length_le .networkKey fits
    have sent : key.send {} = .ok bytes := framed
    have named : ∀ name, (none : Option String) = some name → name.isEmpty = false := by simp
    refine ⟨bytes, sent, fun now => ?_⟩
    rw [ofSent_of_send decoded.toWellFormed named sent now, Option.getD_none, ← decoded.fileName]
    rfl

end KeyRecord

namespace BucketRecord

/-- What decoding makes sure of in a bucket. -/
structure Decoded (bucket : BucketRecord) : Prop extends bucket.WellFormed where
  /-- It could have been made without a frame. -/
  made : bucket.Made
  /-- No two entries are for the same subject. -/
  apart : bucket.acls.entries.Pairwise fun entry other => entry.isEquivalent other = false

/-- A bucket that is read back from its frame, stored or sent, if its fields fit into one. -/
structure ReadsBack (bucket : BucketRecord) : Prop where
  stored : (Wire.bucketForm.put (.ofRecord bucket)).length ≤ Frame.payloadLimit →
    ∃ bytes, bucket.persist = .ok bytes ∧ ∀ now, ofPersisted bytes now = .ok bucket
  sent : (Wire.bucketForm.put (.ofRecord bucket)).length ≤ Frame.payloadLimit →
    ∃ bytes, bucket.send = .ok bytes ∧ ∀ now, ofSent bytes now = .ok bucket

/-- A bucket that is read from a frame is well formed. -/
theorem decoded_of_decode {form : Form} {bytes : List UInt8} {now : UInt64}
    {bucket : BucketRecord} (read : decode form bytes now = .ok bucket) : bucket.Decoded := by
  obtain ⟨fields, -, read⟩ := bind_eq_ok_iff.1 read
  have built := mapError_eq_ok_iff.1 read
  obtain ⟨wellFormed, -⟩ := BucketDraft.build_eq_ok built
  exact ⟨wellFormed, .built built, wellFormed.acls.apart⟩

/-- A well-formed bucket survives another round trip in either form. -/
theorem Decoded.readsBack {bucket : BucketRecord} (decoded : bucket.Decoded) :
    bucket.ReadsBack := by
  have reads : ∀ form : Form,
      (Wire.bucketForm.put (.ofRecord bucket)).length ≤ Frame.payloadLimit →
        ∃ bytes, bucket.encode form = .ok bytes ∧ ∀ now, decode form bytes now = .ok bucket := by
    intro form fits
    obtain ⟨bytes, framed⟩ := Frame.wrap_of_length_le form fits
    exact ⟨bytes, framed, decode_of_encode decoded.toWellFormed framed⟩
  exact ⟨reads .persistedBucket, reads .networkBucket⟩

end BucketRecord

/-- Whatever the bytes are, a record that is decoded from them is well formed and is read back
after it was encoded again. -/
theorem decoded_wellFormed (bytes : List UInt8) (now : UInt64) :
    (∀ key : KeyRecord,
      KeyRecord.ofPersisted bytes now = .ok key ∨ KeyRecord.ofSent bytes now = .ok key →
        key.Decoded ∧ key.ReadsBack) ∧
    ∀ bucket : BucketRecord,
      BucketRecord.ofPersisted bytes now = .ok bucket ∨ BucketRecord.ofSent bytes now = .ok bucket →
        bucket.Decoded ∧ bucket.ReadsBack := by
  constructor
  · rintro key (stored | sent)
    · have decoded := KeyRecord.decoded_of_ofPersisted stored
      exact ⟨decoded, decoded.readsBack⟩
    · have decoded := KeyRecord.decoded_of_ofSent sent
      exact ⟨decoded, decoded.readsBack⟩
  · intro bucket read
    have decoded : bucket.Decoded :=
      read.elim BucketRecord.decoded_of_decode BucketRecord.decoded_of_decode
    exact ⟨decoded, decoded.readsBack⟩

/-- Fields with two entries for one user and with a block that is marked with another version than
that of its group, and without any other field that can be missing. -/
def KeyForm.irregular : KeyForm where
  volume := some "v"
  bucket := some "b"
  name := some "directory/k"
  size := none
  created := none
  modified := none
  replication := some (.ratis 3)
  encryption := none
  checksum := none
  isFile := none
  owner := none
  acls := [.user "u" .read, .user "w" .read, .user "u" .write]
  metadata := .empty
  tags := .empty
  objectId := none
  parentId := none
  generation := none
  expected := none
  history := [⟨some 3, [⟨some 1, some 2, none, none, some 7, none⟩], none⟩]
  latest := none

/-- Entries are merged and marks are set when the irregular fields are decoded. -/
theorem decoded_wellFormed_irregular :
    ∃ bytes key, Codec.encode .persistedKey Wire.keyForm .irregular = .ok bytes ∧
      KeyRecord.ofPersisted bytes 9 = .ok key ∧
      (key.acls.entries.length = 2 ∧ key.fileName = "k" ∧
        key.history.map (·.blocks.map (·.version)) = [[3]]) ∧
      key.Decoded ∧ key.ReadsBack := by
  have fits : (Wire.keyForm.put .irregular).length ≤ Frame.payloadLimit := by decide +kernel
  obtain ⟨bytes, framed⟩ := Frame.wrap_of_length_le .persistedKey fits
  have fields := Codec.decode_of_encode KeyRecord.lawful_keyForm framed
  obtain ⟨key, built, seen⟩ : ∃ key, KeyForm.irregular.record 9 = .ok key ∧
      key.acls.entries.length = 2 ∧ key.fileName = "k" ∧
        key.history.map (·.blocks.map (·.version)) = [[3]] := ⟨_, rfl, by decide +kernel⟩
  have read : KeyRecord.ofPersisted bytes 9 = .ok key := by
    rw [KeyRecord.ofPersisted, fields]
    change (KeyForm.irregular.record 9).mapError .malformed = .ok key
    rw [built]
    rfl
  exact ⟨bytes, key, framed, read, seen, (decoded_wellFormed bytes 9).1 key (.inl read)⟩

end ObjectLedger
