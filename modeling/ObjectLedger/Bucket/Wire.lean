import ObjectLedger.Bucket.Draft
import ObjectLedger.Wire.Field

/-! # The wire form of bucket records

All fields of a bucket record but its entries and labels may be absent on the wire.
-/

namespace ObjectLedger

/-- The fields of a bucket record on the wire. -/
structure BucketForm where
  volume : Option String
  name : Option String
  acls : List Acl
  versioning : Option Bool
  medium : Option StorageMedium
  layout : Option BucketLayout
  created : Option UInt64
  modified : Option UInt64
  quotaBytes : Option Int64
  quotaKeys : Option Int64
  usedBytes : Option Int64
  usedKeys : Option Int64
  defaultReplication : Option Replication
  encryption : Option BucketEncryption
  owner : Option String
  sourceVolume : Option String
  sourceBucket : Option String
  metadata : Dictionary String
  objectId : Option UInt64
  updateId : Option UInt64
deriving DecidableEq

namespace BucketForm

/-- The fields of a record. -/
def ofRecord (bucket : BucketRecord) : BucketForm where
  volume := some bucket.volume
  name := some bucket.name
  acls := bucket.acls.entries
  versioning := some bucket.versioning
  medium := some bucket.medium
  layout := some bucket.layout
  created := some bucket.created
  modified := some bucket.modified
  quotaBytes := some bucket.quotaBytes
  quotaKeys := some bucket.quotaKeys
  usedBytes := some bucket.usedBytes
  usedKeys := some bucket.usedKeys
  defaultReplication := bucket.defaultReplication
  encryption := bucket.encryption
  owner := bucket.owner
  sourceVolume := bucket.sourceVolume
  sourceBucket := bucket.sourceBucket
  metadata := bucket.metadata
  objectId := some bucket.objectId
  updateId := some bucket.updateId

/-- The draft with the given fields. An absent quota sets no limit. -/
def draft (form : BucketForm) : BucketDraft where
  volume := form.volume
  name := form.name
  acls := form.acls
  versioning := form.versioning.getD false
  medium := form.medium
  layout := form.layout.getD .legacy
  created := form.created
  modified := form.modified
  quotaBytes := form.quotaBytes.getD Quota.unlimited
  quotaKeys := form.quotaKeys.getD Quota.unlimited
  usedBytes := form.usedBytes.getD 0
  usedKeys := form.usedKeys.getD 0
  defaultReplication := form.defaultReplication
  encryption := form.encryption
  owner := form.owner
  sourceVolume := form.sourceVolume
  sourceBucket := form.sourceBucket
  metadata := form.metadata
  objectId := form.objectId.getD 0
  updateId := form.updateId.getD 0

/-- The record with the given fields, or what is wrong with them. -/
def record (form : BucketForm) (now : UInt64) : Except Malformation BucketRecord :=
  form.draft.build now

end BucketForm

def Wire.bucketForm : Wire BucketForm :=
  (text.optional.pair <| text.optional.pair <| acl.list.pair <| truth.optional.pair <|
      medium.optional.pair <| layout.optional.pair <| word.optional.pair <|
      word.optional.pair <| signed.optional.pair <| signed.optional.pair <|
      signed.optional.pair <| signed.optional.pair <| replication.optional.pair <|
      bucketEncryption.optional.pair <| text.optional.pair <| text.optional.pair <|
      text.optional.pair <| (dictionary text).pair <| word.optional.pair word.optional).map
    (fun form => (form.volume, form.name, form.acls, form.versioning, form.medium, form.layout,
      form.created, form.modified, form.quotaBytes, form.quotaKeys, form.usedBytes,
      form.usedKeys, form.defaultReplication, form.encryption, form.owner, form.sourceVolume,
      form.sourceBucket, form.metadata, form.objectId, form.updateId))
    (fun (volume, name, acls, versioning, medium, layout, created, modified, quotaBytes,
        quotaKeys, usedBytes, usedKeys, defaultReplication, encryption, owner, sourceVolume,
        sourceBucket, metadata, objectId, updateId) =>
      { volume, name, acls, versioning, medium, layout, created, modified, quotaBytes,
        quotaKeys, usedBytes, usedKeys, defaultReplication, encryption, owner, sourceVolume,
        sourceBucket, metadata, objectId, updateId })

end ObjectLedger
