import ObjectLedger.Proofs.Key.Made

/-! # Buckets round trip

A bucket is built from a draft and then changed by its operations; no other bucket exists
(`BucketRecord.Made`). Each of them keeps a bucket well formed (`BucketRecord.Made.wellFormed`), so
a bucket that fits into a frame is read back from it without loss, whether it was stored or sent
(`BucketRecord.restored_of_made`). The two frames differ in the byte of their form alone
(`Frame.wrap_of_wrap`).
-/

namespace ObjectLedger

/-! ## Frames of one payload -/

namespace Frame

/-- Where a frame names its form: after the four bytes of its length. -/
def formAt : Nat := 4

variable {form : Form} {payload bytes : List UInt8}

/-- The payload follows the header. -/
theorem drop_of_wrap (wrapped : wrap form payload = .ok bytes) :
    bytes.drop headerSize = payload := by
  obtain ⟨_, rfl⟩ := wrap_eq_ok_iff.1 wrapped
  rw [← length_header form payload, List.drop_left]

/-- A frame names its form. -/
theorem formAt_of_wrap (wrapped : wrap form payload = .ok bytes) :
    bytes[formAt]? = some form.tag := by
  obtain ⟨_, rfl⟩ := wrap_eq_ok_iff.1 wrapped
  rfl

/-- In another form the same payload has the same frame, but for the byte that names the form. -/
theorem wrap_of_wrap (wrapped : wrap form payload = .ok bytes) (other : Form) :
    wrap other payload = .ok (bytes.set formAt other.tag) := by
  obtain ⟨fits, rfl⟩ := wrap_eq_ok_iff.1 wrapped
  apply wrap_eq_ok_iff.2
  exact ⟨fits, rfl⟩

end Frame

/-! ## Buckets that can be made -/

namespace BucketRecord

/-- The buckets that building and the operations on buckets make. -/
inductive Made : BucketRecord → Prop
  | built {draft : BucketDraft} {now : UInt64} {bucket : BucketRecord}
      (built : draft.build now = .ok bucket) : Made bucket
  | setQuota {bucket : BucketRecord} (made : bucket.Made) (bytes keys : Int64) :
      Made { bucket with quotaBytes := bytes, quotaKeys := keys }
  | charge {bucket : BucketRecord} (made : bucket.Made) (bytes keys : Int64) :
      Made (bucket.charge bytes keys)
  | setOwner {bucket : BucketRecord} (made : bucket.Made) (owner : String) :
      Made { bucket with owner := some owner }
  | advanceUpdate {bucket : BucketRecord} (made : bucket.Made) (id : UInt64) :
      Made (bucket.advanceUpdate id)
  | setModified {bucket : BucketRecord} (made : bucket.Made) (time : UInt64) :
      Made { bucket with modified := time }
  | addAcl {bucket : BucketRecord} (made : bucket.Made) (acl : Acl) : Made (bucket.addAcl acl).1
  | removeAcl {bucket : BucketRecord} (made : bucket.Made) (acl : Acl) :
      Made (bucket.removeAcl acl).1
  | setAcls {bucket : BucketRecord} (made : bucket.Made) (entries : List Acl) :
      Made (bucket.setAcls entries).1

variable {bucket : BucketRecord}

/-- Being well formed is about the names, the entries and the default replication only. -/
theorem WellFormed.of_same {other : BucketRecord} (wellFormed : bucket.WellFormed)
    (volume : other.volume = bucket.volume) (name : other.name = bucket.name)
    (replication : other.defaultReplication = bucket.defaultReplication)
    (acls : other.acls.Distinct) : other.WellFormed where
  volume := volume ▸ wellFormed.volume
  name := name ▸ wellFormed.name
  acls := acls
  replication := replication ▸ wellFormed.replication

/-- Every bucket that can be made is well formed, as no edit touches its names. -/
theorem Made.wellFormed (made : bucket.Made) : bucket.WellFormed := by
  induction made with
  | built built => exact (BucketDraft.build_eq_ok built).1
  | setQuota _ bytes keys ih => exact ih.of_same rfl rfl rfl ih.acls
  | charge _ bytes keys ih => exact ih.of_same rfl rfl rfl ih.acls
  | setOwner _ owner ih => exact ih.of_same rfl rfl rfl ih.acls
  | advanceUpdate _ id ih => exact ih.of_same rfl rfl rfl ih.acls
  | setModified _ time ih => exact ih.of_same rfl rfl rfl ih.acls
  | addAcl _ acl ih => exact ih.of_same rfl rfl rfl (AclSet.add_distinct ih.acls acl)
  | removeAcl _ acl ih => exact ih.of_same rfl rfl rfl (AclSet.remove_distinct ih.acls acl)
  | setAcls _ entries ih => exact ih.of_same rfl rfl rfl (AclSet.replace_distinct ih.acls entries)

/-! ## The round trip -/

/-- The written fields of a bucket. -/
def payload (bucket : BucketRecord) : List UInt8 := Wire.bucketForm.put (.ofRecord bucket)

/-- A made bucket that fits into a frame is read back from it, stored or sent. The two frames hold
the same payload and differ in the byte of the form. -/
theorem restored_of_made (made : bucket.Made)
    (fits : bucket.payload.length ≤ Frame.payloadLimit) :
    ∃ stored sent, bucket.persist = .ok stored ∧ bucket.send = .ok sent ∧
      (∀ now, ofPersisted stored now = .ok bucket) ∧ (∀ now, ofSent sent now = .ok bucket) ∧
      stored.drop Frame.headerSize = bucket.payload ∧
      sent.drop Frame.headerSize = bucket.payload ∧
      stored[Frame.formAt]? = some Form.persistedBucket.tag ∧
      sent = stored.set Frame.formAt Form.networkBucket.tag := by
  have wellFormed := made.wellFormed
  obtain ⟨stored, persisted⟩ := Frame.wrap_of_length_le .persistedBucket fits
  have sent := Frame.wrap_of_wrap persisted .networkBucket
  refine ⟨stored, _, persisted, sent, ?_, ?_, ?_, ?_, ?_, rfl⟩
  · exact fun now => decode_of_encode wellFormed persisted now
  · exact fun now => decode_of_encode wellFormed sent now
  · exact Frame.drop_of_wrap persisted
  · exact Frame.drop_of_wrap sent
  · exact Frame.formAt_of_wrap persisted

/-- A draft of a link that names the volume of its source only, with counters and quotas at their
limits. -/
def halfLinked : BucketDraft where
  volume := some "v"
  name := some "b"
  acls := [.user "u" .read, .user "u" .write]
  medium := some .ssd
  layout := .objectStore
  created := some 7
  quotaBytes := Int64.minValue
  quotaKeys := Int64.maxValue
  usedBytes := Int64.maxValue
  usedKeys := -3
  defaultReplication := some (.erasureCoded ⟨.reedSolomon, 3, 2, 4⟩)
  sourceVolume := some "w"
  metadata := .ofList [("label", "")]
  objectId := 5
  updateId := 6

/-- The bucket of that draft, changed by each operation: its counter of bytes wraps around, and
its owner is there but empty. -/
def edited (bucket : BucketRecord) : BucketRecord :=
  let bucket := (bucket.charge 1 (-5)).advanceUpdate 4
  let bucket := { bucket with owner := some "" }
  let bucket := { bucket with quotaBytes := -1, quotaKeys := Int64.minValue }
  let bucket := { bucket with modified := 9 }
  let bucket := (bucket.addAcl (.user "w" .all)).1
  (bucket.removeAcl (.user "u" .read)).1

/-- A bucket with half a link, an empty owner and the lowest counter is read back in both forms. -/
theorem restored_edited : ∃ built, halfLinked.build 0 = .ok built ∧
    built.edited.usedBytes = Int64.minValue ∧ built.edited.owner = some "" ∧
    built.edited.sourceVolume = some "w" ∧ built.edited.sourceBucket = none ∧
    ∃ stored sent, built.edited.persist = .ok stored ∧ built.edited.send = .ok sent ∧
      ofPersisted stored 11 = .ok built.edited ∧ ofSent sent 12 = .ok built.edited ∧
      stored.drop Frame.headerSize = sent.drop Frame.headerSize ∧
      sent = stored.set Frame.formAt Form.networkBucket.tag := by
  refine ⟨_, rfl, by decide, rfl, rfl, rfl, ?_⟩
  have made : ∀ built, halfLinked.build 0 = .ok built → built.edited.Made := by
    intro built given
    have charged := ((Made.built given).charge 1 (-5)).advanceUpdate 4
    have limited := (charged.setOwner "").setQuota (-1) Int64.minValue
    exact ((limited.setModified 9).addAcl _).removeAcl _
  obtain ⟨stored, sent, persisted, framed, read, received, first, second, -, same⟩ :=
    restored_of_made (made _ rfl) (by decide +kernel)
  exact ⟨stored, sent, persisted, framed, read 11, received 12, first.trans second.symm, same⟩

end BucketRecord

end ObjectLedger
