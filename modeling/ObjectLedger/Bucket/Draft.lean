import ObjectLedger.Bucket.Basic

/-! # Drafts of bucket records

A draft gathers the fields of a bucket record. Building it checks that volume and
bucket are there and not empty, that the medium is there, and that a default
replication is usable.
-/

namespace ObjectLedger

/-- The fields of a bucket record, the required ones still open. -/
structure BucketDraft where
  volume : Option String := none
  name : Option String := none
  acls : List Acl := []
  versioning : Bool := false
  medium : Option StorageMedium := none
  layout : BucketLayout := .legacy
  created : Option UInt64 := none
  modified : Option UInt64 := none
  quotaBytes : Int64 := Quota.unlimited
  quotaKeys : Int64 := Quota.unlimited
  usedBytes : Int64 := 0
  usedKeys : Int64 := 0
  defaultReplication : Option Replication := none
  encryption : Option BucketEncryption := none
  owner : Option String := none
  sourceVolume : Option String := none
  sourceBucket : Option String := none
  metadata : Dictionary String := .empty
  objectId : UInt64 := 0
  updateId : UInt64 := 0

namespace BucketDraft

/-- The record of a draft, or what is wrong with the draft. A record without
creation time was created at the given time, and one without modification time was
last modified when it was created. -/
def build (draft : BucketDraft) (now : UInt64) : Except Malformation BucketRecord := do
  let volume ← Malformation.named "volume" draft.volume
  let name ← Malformation.named "bucket" draft.name
  let some medium := draft.medium | throw (.missing "storage type")
  draft.defaultReplication.forM Malformation.checkReplication
  let created := draft.created.getD now
  pure
    { volume, name
      acls := .ofList draft.acls
      versioning := draft.versioning
      medium
      layout := draft.layout
      created
      modified := draft.modified.getD created
      quotaBytes := draft.quotaBytes
      quotaKeys := draft.quotaKeys
      usedBytes := draft.usedBytes
      usedKeys := draft.usedKeys
      defaultReplication := draft.defaultReplication
      encryption := draft.encryption
      owner := draft.owner
      sourceVolume := draft.sourceVolume
      sourceBucket := draft.sourceBucket
      metadata := draft.metadata
      objectId := draft.objectId
      updateId := draft.updateId }

end BucketDraft

def BucketRecord.toDraft (bucket : BucketRecord) : BucketDraft where
  volume := some bucket.volume
  name := some bucket.name
  acls := bucket.acls.entries
  versioning := bucket.versioning
  medium := some bucket.medium
  layout := bucket.layout
  created := some bucket.created
  modified := some bucket.modified
  quotaBytes := bucket.quotaBytes
  quotaKeys := bucket.quotaKeys
  usedBytes := bucket.usedBytes
  usedKeys := bucket.usedKeys
  defaultReplication := bucket.defaultReplication
  encryption := bucket.encryption
  owner := bucket.owner
  sourceVolume := bucket.sourceVolume
  sourceBucket := bucket.sourceBucket
  metadata := bucket.metadata
  objectId := bucket.objectId
  updateId := bucket.updateId

end ObjectLedger
