import ObjectLedger.Key.Reconciliation
import ObjectLedger.Service.Bucket

/-! # Opening keys

A writer opens a key and gets a session: a private copy of the key with a fresh version of
allocated blocks, beside the record that was stored when the key was opened. More blocks can
be allocated to the session while the writer writes.
-/

namespace ObjectLedger

/-- What a writer asks for when it opens a key. -/
structure OpenRequest where
  volume : String
  bucket : String
  key : String
  /-- The expected size of the object, or 0. -/
  sizeHint : UInt64 := 0
  /-- The replication in place of the bucket's default. -/
  replication : Option Replication := none
  owner : Option String := none
  acls : List Acl := []
  metadata : Labels := .empty

/-- A key that is open for writing. -/
structure Session where
  id : UInt64
  /-- The private copy of the key. -/
  key : KeyRecord
  /-- The version that is written. -/
  version : UInt64
  /-- Whether the bucket keeps older versions. -/
  versioning : Bool
  /-- The record that was stored when the key was opened. -/
  previous : Option KeyRecord

/-- The blocks allocated to a session so far. -/
def Session.allocated (session : Session) : List Block := session.key.latestBlocks

/-- The number of blocks that hold a size, rounded up. -/
def Settings.blocksFor (settings : Settings) (size : UInt64) : Nat :=
  (size.toNat + settings.blockSize.toNat - 1) / settings.blockSize.toNat

/-- The number of blocks allocated to a key when it is opened. -/
def Settings.openingBlocks (settings : Settings) (sizeHint : UInt64) : Nat :=
  let wanted := if sizeHint = 0 then settings.preallocated.toNat else settings.blocksFor sizeHint
  min wanted settings.maxPreallocated.toNat

namespace Action

/-- The private copy of a stored key for a writer. It may only replace the record that was
read. -/
def reopened (existing : KeyRecord) (replication : Replication) (acls : List Acl) : KeyRecord :=
  let key := { existing with replication, expected := some existing.generation }
  acls.foldl (fun key acl => (key.addAcl acl).1) key

/-- The private copy of a key that is not stored. -/
def newKey (request : OpenRequest) (bucket : BucketRecord) (replication : Replication) :
    Action KeyRecord := do
  let objectId ← takeObjectId
  let time ← now
  let draft : KeyDraft :=
    { volume := some bucket.volume
      bucket := some bucket.name
      name := some request.key
      replication := some replication
      isFile := true
      objectId
      parentId := bucket.objectId
      acls := request.acls ++ bucket.acls.entries
      owner := request.owner }
  match draft.build time with
  | .error cause => fail (.record (.malformed cause))
  | .ok key => pure key

/-- The replication of a key: the one asked for, else the bucket's, else the default. -/
def chosenReplication (settings : Settings) (request : OpenRequest) (bucket : BucketRecord) :
    Replication :=
  (request.replication.or bucket.defaultReplication).getD settings.defaultReplication

/-- A key is opened for writing and gets its first blocks. -/
def openKey (settings : Settings) (request : OpenRequest) : Action Session := do
  let bucket ← resolveBucket request.volume request.bucket
  let replication := chosenReplication settings request bucket
  let previous ← readKey bucket.volume bucket.name request.key
  let key ← match previous with
    | some existing => pure (reopened existing replication request.acls)
    | none => newKey request bucket replication
  let key := request.metadata.entries.foldl (fun key label => key.addLabel label.1 label.2) key
  let blocks ←
    allocateBlocks replication (settings.openingBlocks request.sizeHint) settings.blockSize
  let time ← now
  let (key, version) ← ofWord (key.addVersion blocks (some time) bucket.versioning)
  let id ← takeSession
  pure { id, key, version, versioning := bucket.versioning, previous }

/-- One more block is allocated to a session. -/
def allocateBlock (settings : Settings) (session : Session) : Action (Block × Session) := do
  let blocks ← allocateBlocks session.key.replication 1 settings.blockSize
  match blocks.getLast? with
  | none => fail (.settings .noBlock)
  | some block =>
    let time ← now
    let key ← ofRecord (session.key.appendBlocks [block] (some time))
    pure (block, { session with key })

end Action

end ObjectLedger
