import ObjectLedger.Codec
import ObjectLedger.Store.Error

/-! # The record store

Records are kept under their paths in their stored encoding, so reading one decodes an
independent copy without the placement of its blocks. Beside the encoding stands the
generation of a key or the update identifier of a bucket, which the condition of a write is
checked against.
-/

namespace ObjectLedger

/-- A stored record and what conditions on it are checked against. -/
structure Stored where
  generation : UInt64
  bytes : List UInt8
deriving DecidableEq

/-- What has to be stored under a name for a write to go through. -/
inductive Precondition where
  | unconditional
  /-- Nothing may be stored. -/
  | absent
  /-- A record of this generation has to be stored. -/
  | generation (expected : UInt64)
deriving DecidableEq, Repr

/-- The path of a bucket. -/
def bucketPath (volume bucket : String) : String := "/" ++ volume ++ "/" ++ bucket

/-- The path of a key. -/
def keyPath (volume bucket key : String) : String := "/" ++ volume ++ "/" ++ bucket ++ "/" ++ key

/-- A condition holds if it matches what is stored under the name. -/
def Precondition.check (condition : Precondition) (name : String) (current : Option Stored) :
    Except StoreError Unit :=
  let actual := current.map (·.generation)
  match condition with
  | .unconditional => .ok ()
  | .absent => if actual = none then .ok () else .error (.concurrent name none actual)
  | .generation expected =>
    if actual = some expected then .ok () else .error (.concurrent name (some expected) actual)

/-- The stored keys and buckets, by their paths. -/
structure Records where
  keys : Dictionary Stored
  buckets : Dictionary Stored
deriving DecidableEq

namespace Records

def empty : Records := ⟨.empty, .empty⟩

/-- The key stored under a name. -/
def readKey (records : Records) (now : UInt64) (volume bucket key : String) :
    Except StoreError (Option KeyRecord) :=
  match records.keys.get? (keyPath volume bucket key) with
  | none => .ok none
  | some stored => some <$> (KeyRecord.ofPersisted stored.bytes now).mapError .codec

/-- The store with a key under its own name, if the condition holds. -/
def writeKey (records : Records) (key : KeyRecord) (condition : Precondition) :
    Except StoreError Records := do
  let path := keyPath key.volume key.bucket key.name
  let bytes ← key.persist.mapError .codec
  condition.check path (records.keys.get? path)
  pure { records with keys := records.keys.insert path ⟨key.generation, bytes⟩ }

/-- The store without a key, if the condition holds, and what was stored. -/
def takeKey (records : Records) (volume bucket key : String) (condition : Precondition) :
    Except StoreError (Option Stored × Records) := do
  let path := keyPath volume bucket key
  let current := records.keys.get? path
  condition.check path current
  pure (current, { records with keys := records.keys.erase path })

/-- What stands in a path behind as many bytes as a text has. -/
def behind (base path : String) : String :=
  String.Pos.Raw.extract path base.rawEndPos path.rawEndPos

/-- The names of the keys of a bucket that start with a text, in increasing order. The paths are
read from the first one that is not below what they have to start with, for as long as they start
with it. -/
def listKeys (records : Records) (volume bucket start : String) : List String :=
  let base := bucketPath volume bucket ++ "/"
  let first := base ++ start
  ((records.keys.keysFrom first).takeWhile (·.startsWith first)).map (behind base)

/-- The bucket stored under a name. -/
def readBucket (records : Records) (now : UInt64) (volume bucket : String) :
    Except StoreError (Option BucketRecord) :=
  match records.buckets.get? (bucketPath volume bucket) with
  | none => .ok none
  | some stored => some <$> (BucketRecord.ofPersisted stored.bytes now).mapError .codec

/-- The store with a bucket under its own name, if the condition holds. -/
def writeBucket (records : Records) (bucket : BucketRecord) (condition : Precondition) :
    Except StoreError Records := do
  let path := bucketPath bucket.volume bucket.name
  let bytes ← bucket.persist.mapError .codec
  condition.check path (records.buckets.get? path)
  pure { records with buckets := records.buckets.insert path ⟨bucket.updateId, bytes⟩ }

/-- The store with a new bucket, if there is none under its name. -/
def createBucket (records : Records) (bucket : BucketRecord) : Except StoreError Records := do
  let path := bucketPath bucket.volume bucket.name
  let bytes ← bucket.persist.mapError .codec
  if records.buckets.contains path then throw (.bucketExists bucket.volume bucket.name)
  pure { records with buckets := records.buckets.insert path ⟨bucket.updateId, bytes⟩ }

end Records

end ObjectLedger
