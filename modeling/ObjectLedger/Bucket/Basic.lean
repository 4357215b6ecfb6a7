import ObjectLedger.Acl.Set
import ObjectLedger.Dictionary
import ObjectLedger.Encryption
import ObjectLedger.RecordError
import ObjectLedger.Storage
import ObjectLedger.Word

/-! # Bucket records

A bucket record holds the policy of a bucket and the counters of its usage. A link
names another bucket as its source and holds no keys of its own. A counter moves by
signed deltas and wraps around; a quota limits growth only (`Quota.check`).
-/

namespace ObjectLedger

/-- The metadata of one bucket. -/
structure BucketRecord where
  volume : String
  name : String
  acls : AclSet
  versioning : Bool
  medium : StorageMedium
  layout : BucketLayout
  created : UInt64
  modified : UInt64
  quotaBytes : Int64
  quotaKeys : Int64
  /-- The replicated bytes of the bucket's keys. -/
  usedBytes : Int64
  /-- The number of the bucket's keys. -/
  usedKeys : Int64
  defaultReplication : Option Replication
  encryption : Option BucketEncryption
  owner : Option String
  sourceVolume : Option String
  sourceBucket : Option String
  metadata : Dictionary String
  objectId : UInt64
  /-- The last transaction that changed the bucket. -/
  updateId : UInt64
deriving DecidableEq

/-- The quota that sets no limit. -/
def Quota.unlimited : Int64 := -1

/-- Growth by a positive delta has to stay within a limiting quota. -/
def Quota.check (bucket : String) (kind : QuotaKind) (used delta quota : Int64) :
    Except RecordError Unit :=
  if quota = unlimited ∨ delta ≤ 0 then .ok ()
  else if quota < Word.clampSigned (used.toInt + delta.toInt) then
    .error (.quotaExceeded bucket kind used delta quota)
  else .ok ()

namespace BucketRecord

/-- The volume and bucket that a link names. -/
def source? (bucket : BucketRecord) : Option (String × String) :=
  match bucket.sourceVolume, bucket.sourceBucket with
  | some volume, some name => some (volume, name)
  | _, _ => none

def isLink (bucket : BucketRecord) : Bool := bucket.source?.isSome

/-- Growth by a number of bytes has to stay within the quota of bytes. -/
def checkBytes (bucket : BucketRecord) (delta : Int64) : Except RecordError Unit :=
  Quota.check bucket.name .bytes bucket.usedBytes delta bucket.quotaBytes

/-- Growth by a number of keys has to stay within the quota of keys. -/
def checkKeys (bucket : BucketRecord) (delta : Int64) : Except RecordError Unit :=
  Quota.check bucket.name .keys bucket.usedKeys delta bucket.quotaKeys

/-- The bucket with both counters moved. -/
def charge (bucket : BucketRecord) (bytes keys : Int64) : BucketRecord :=
  { bucket with
    usedBytes := bucket.usedBytes + bytes
    usedKeys := bucket.usedKeys + keys }

/-- The bucket with an update identifier that is not before its own. -/
def advanceUpdate (bucket : BucketRecord) (id : UInt64) : BucketRecord :=
  { bucket with updateId := max bucket.updateId id }

/-- The bucket with a grant, and whether it changed. -/
def addAcl (bucket : BucketRecord) (acl : Acl) : BucketRecord × Bool :=
  let (acls, changed) := bucket.acls.add acl
  ({ bucket with acls }, changed)

/-- The bucket without the rights of an entry, and whether it changed. -/
def removeAcl (bucket : BucketRecord) (acl : Acl) : BucketRecord × Bool :=
  let (acls, changed) := bucket.acls.remove acl
  ({ bucket with acls }, changed)

/-- The bucket with other entries, and whether they differ. -/
def setAcls (bucket : BucketRecord) (entries : List Acl) : BucketRecord × Bool :=
  let (acls, changed) := bucket.acls.replace entries
  ({ bucket with acls }, changed)

end BucketRecord

end ObjectLedger
