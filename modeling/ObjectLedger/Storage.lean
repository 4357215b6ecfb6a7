/-! # Storage media and bucket layouts -/

namespace ObjectLedger

/-- The medium that a bucket's data is kept on. -/
inductive StorageMedium where
  | ramDisk
  | ssd
  | disk
  | archive
deriving DecidableEq, Repr

namespace StorageMedium

def name : StorageMedium → String
  | .ramDisk => "RAM_DISK"
  | .ssd => "SSD"
  | .disk => "DISK"
  | .archive => "ARCHIVE"

/-- The medium with a written name. -/
def ofName? (text : String) : Option StorageMedium :=
  [ramDisk, ssd, disk, archive].find? (·.name = text)

/-- The report of a name that no medium has. -/
def unknownMessage (text : String) : String := "unknown storage type: " ++ text

end StorageMedium

/-- How the keys of a bucket are organised. -/
inductive BucketLayout where
  /-- A flat space of names. -/
  | objectStore
  /-- A tree of directories, keyed by the parent's identifier. -/
  | fileSystemOptimized
  /-- The layout of buckets from before layouts were told apart. -/
  | legacy
deriving DecidableEq, Repr

def BucketLayout.name : BucketLayout → String
  | .objectStore => "OBJECT_STORE"
  | .fileSystemOptimized => "FILE_SYSTEM_OPTIMIZED"
  | .legacy => "LEGACY"

end ObjectLedger
