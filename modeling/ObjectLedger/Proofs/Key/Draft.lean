import ObjectLedger.Bucket.Draft
import ObjectLedger.Key.Draft
import ObjectLedger.Proofs.Checked
import ObjectLedger.Proofs.Codec.Record

/-! # Built records are well formed

A draft is built only into a well-formed record, and the record has the fields of the draft
(`KeyDraft.build_eq_ok`, `BucketDraft.build_eq_ok`).
-/

namespace ObjectLedger

/-- What is required was given, and is not empty. -/
theorem Malformation.required_eq_ok {field : String} {given : Option String} {value : String}
    (present : required field given = .ok value) : given = some value ∧ value.isEmpty = false := by
  cases given with
  | none => cases present
  | some found =>
      rw [required] at present
      split at present
      · cases present
      · rename_i filled
        cases present
        exact ⟨rfl, Bool.eq_false_iff.2 filled⟩

/-- A name was given, and is not empty. -/
theorem Malformation.named_eq_ok {field : String} {given : Option String} {value : String}
    (present : named field given = .ok value) : given = some value ∧ value.isEmpty = false := by
  cases given with
  | none => cases present
  | some found =>
      rw [named] at present
      split at present
      · cases present
      · rename_i filled
        cases present
        exact ⟨rfl, Bool.eq_false_iff.2 filled⟩

/-- The check of a replication accepts the usable ones. -/
theorem Malformation.checkReplication_eq_ok_iff (replication : Replication) :
    checkReplication replication = .ok () ↔ replication.Usable := by
  unfold checkReplication Replication.Usable
  cases replication.validate with
  | ok _ => exact ⟨fun _ => rfl, fun _ => rfl⟩
  | error cause => simp

/-- The record of a draft of stamped groups is well formed and has the fields of the draft. -/
theorem KeyDraft.build_eq_ok {draft : KeyDraft} {now : UInt64} {key : KeyRecord}
    (stamped : ∀ group ∈ draft.history, group.Stamped) (built : draft.build now = .ok key) :
    key.WellFormed ∧ draft.volume = some key.volume ∧ draft.bucket = some key.bucket ∧
      draft.name = some key.name ∧ key.fileName = draft.fileName.getD "" ∧
      draft.replication = some key.replication ∧ key.history = draft.history ∧
      key.expected = draft.expected := by
  unfold build at built
  obtain ⟨volumeName, volume, built⟩ := bind_eq_ok_iff.1 built
  obtain ⟨bucketName, bucket, built⟩ := bind_eq_ok_iff.1 built
  obtain ⟨keyName, name, built⟩ := bind_eq_ok_iff.1 built
  cases replication : draft.replication with
  | none =>
      rw [replication] at built
      cases built
  | some chosen =>
      rw [replication] at built
      obtain ⟨_, usable, built⟩ := bind_eq_ok_iff.1 built
      obtain ⟨_, history, built⟩ := bind_eq_ok_iff.1 built
      cases built
      obtain ⟨givenVolume, filledVolume⟩ := Malformation.required_eq_ok volume
      obtain ⟨givenBucket, filledBucket⟩ := Malformation.required_eq_ok bucket
      obtain ⟨givenName, filledName⟩ := Malformation.required_eq_ok name
      refine ⟨?_, givenVolume, givenBucket, givenName, rfl, rfl, rfl, rfl⟩
      exact
        { volume := filledVolume
          bucket := filledBucket
          name := filledName
          replication := (Malformation.checkReplication_eq_ok_iff chosen).1 usable
          acls := AclSet.ofList_distinct _
          ascending := (Malformation.checkHistory_eq_ok_iff _).1 history
          stamped }

/-- A key has the generation of its draft. -/
theorem KeyDraft.generation_of_build {draft : KeyDraft} {now : UInt64} {key : KeyRecord}
    (built : draft.build now = .ok key) : key.generation = draft.generation := by
  unfold build at built
  obtain ⟨_, _, built⟩ := bind_eq_ok_iff.1 built
  obtain ⟨_, _, built⟩ := bind_eq_ok_iff.1 built
  obtain ⟨_, _, built⟩ := bind_eq_ok_iff.1 built
  cases replication : draft.replication with
  | none =>
      rw [replication] at built
      cases built
  | some chosen =>
      rw [replication] at built
      obtain ⟨_, _, built⟩ := bind_eq_ok_iff.1 built
      obtain ⟨_, _, built⟩ := bind_eq_ok_iff.1 built
      cases built
      rfl

/-- The record of a draft is well formed and has the name of the draft. -/
theorem BucketDraft.build_eq_ok {draft : BucketDraft} {now : UInt64} {bucket : BucketRecord}
    (built : draft.build now = .ok bucket) :
    bucket.WellFormed ∧ draft.volume = some bucket.volume ∧ draft.name = some bucket.name := by
  unfold build at built
  obtain ⟨volumeName, volume, built⟩ := bind_eq_ok_iff.1 built
  obtain ⟨bucketName, name, built⟩ := bind_eq_ok_iff.1 built
  cases medium : draft.medium with
  | none =>
      rw [medium] at built
      cases built
  | some chosen =>
      rw [medium] at built
      obtain ⟨_, usable, built⟩ := bind_eq_ok_iff.1 built
      cases built
      obtain ⟨givenVolume, filledVolume⟩ := Malformation.named_eq_ok volume
      obtain ⟨givenName, filledName⟩ := Malformation.named_eq_ok name
      refine ⟨?_, givenVolume, givenName⟩
      refine ⟨filledVolume, filledName, AclSet.ofList_distinct _, ?_⟩
      intro replication given
      rw [show draft.defaultReplication = some replication from given] at usable
      exact (Malformation.checkReplication_eq_ok_iff replication).1 usable

/-- A bucket has the update identifier of its draft. -/
theorem BucketDraft.updateId_of_build {draft : BucketDraft} {now : UInt64} {bucket : BucketRecord}
    (built : draft.build now = .ok bucket) : bucket.updateId = draft.updateId := by
  unfold build at built
  obtain ⟨_, _, built⟩ := bind_eq_ok_iff.1 built
  obtain ⟨_, _, built⟩ := bind_eq_ok_iff.1 built
  cases medium : draft.medium with
  | none =>
      rw [medium] at built
      cases built
  | some chosen =>
      rw [medium] at built
      obtain ⟨_, _, built⟩ := bind_eq_ok_iff.1 built
      cases built
      rfl

end ObjectLedger
