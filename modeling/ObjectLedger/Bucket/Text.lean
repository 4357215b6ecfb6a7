import ObjectLedger.Bucket.Basic
import ObjectLedger.Text.Quoted

/-! # Written forms of bucket records -/

namespace ObjectLedger

open Text

def StorageMedium.debugText : StorageMedium → String
  | .ramDisk => "RamDisk"
  | .ssd => "Ssd"
  | .disk => "Disk"
  | .archive => "Archive"

def BucketLayout.debugText : BucketLayout → String
  | .objectStore => "ObjectStore"
  | .fileSystemOptimized => "FileSystemOptimized"
  | .legacy => "Legacy"

namespace BucketRecord

def debugText (bucket : BucketRecord) : String :=
  "BucketRecord \x7b volume: " ++ quoted bucket.volume ++ ", bucket: " ++ quoted bucket.name ++
    ", versioning_enabled: " ++ toString bucket.versioning ++
    ", storage_type: " ++ bucket.medium.debugText ++ ", layout: " ++ bucket.layout.debugText ++
    ", used_bytes: " ++ toString bucket.usedBytes ++
    ", quota_bytes: " ++ toString bucket.quotaBytes ++
    ", used_namespace: " ++ toString bucket.usedKeys ++
    ", quota_namespace: " ++ toString bucket.quotaKeys ++
    ", is_link: " ++ toString bucket.isLink ++ ", .. \x7d"

/-- The fields of a bucket record that an audit log shows. -/
def audit (bucket : BucketRecord) : Dictionary String :=
  .ofList <|
    [("volume", bucket.volume), ("bucket", bucket.name),
      ("isVersionEnabled", toString bucket.versioning), ("storageType", bucket.medium.name),
      ("creationTime", toString bucket.created), ("bucketLayout", bucket.layout.name),
      ("quotaInBytes", toString bucket.quotaBytes),
      ("quotaInNamespace", toString bucket.quotaKeys)] ++
    (bucket.owner.map ("owner", ·)).toList ++
    (bucket.encryption.map fun key => ("bekName", key.keyName)).toList ++
    match bucket.source? with
    | some (volume, name) => [("sourceVolume", volume), ("sourceBucket", name)]
    | none => []

end BucketRecord

end ObjectLedger
