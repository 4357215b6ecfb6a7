import ObjectLedger.Key.Basic

/-! # Drafts of key records

A draft gathers the fields of a key record. Building it checks that volume, bucket
and name are there and not empty, that the replication is usable, and that the
versions of the history increase.
-/

namespace ObjectLedger

/-- The fields of a key record, the required ones still open. -/
structure KeyDraft where
  volume : Option String := none
  bucket : Option String := none
  name : Option String := none
  fileName : Option String := none
  owner : Option String := none
  size : UInt64 := 0
  created : Option UInt64 := none
  modified : Option UInt64 := none
  replication : Option Replication := none
  encryption : Option KeyEncryption := none
  checksum : Option Checksum := none
  isFile : Bool := false
  acls : List Acl := []
  metadata : Labels := .empty
  tags : Labels := .empty
  objectId : UInt64 := 0
  parentId : UInt64 := 0
  generation : UInt64 := 0
  expected : Option UInt64 := none
  history : List VersionGroup := []

/-- The versions of a history have to increase. -/
def Malformation.checkHistory : List VersionGroup → Except Malformation Unit
  | earlier :: later :: rest =>
    if later.version ≤ earlier.version then .error (.versionOrder earlier.version later.version)
    else checkHistory (later :: rest)
  | _ => .ok ()

namespace KeyDraft

/-- The record of a draft, or what is wrong with the draft. A record without
creation time was created at the given time, and one without modification time was
last modified when it was created. -/
def build (draft : KeyDraft) (now : UInt64) : Except Malformation KeyRecord := do
  let volume ← Malformation.required "volume" draft.volume
  let bucket ← Malformation.required "bucket" draft.bucket
  let name ← Malformation.required "key name" draft.name
  let some replication := draft.replication | throw (.missing "replication config")
  Malformation.checkReplication replication
  Malformation.checkHistory draft.history
  let created := draft.created.getD now
  pure
    { volume, bucket, name
      fileName := draft.fileName.getD ""
      owner := draft.owner
      size := draft.size
      created
      modified := draft.modified.getD created
      replication
      encryption := draft.encryption
      checksum := draft.checksum
      isFile := draft.isFile
      acls := .ofList draft.acls
      metadata := draft.metadata
      tags := draft.tags
      objectId := draft.objectId
      parentId := draft.parentId
      generation := draft.generation
      expected := draft.expected
      history := draft.history }

end KeyDraft

def KeyRecord.toDraft (key : KeyRecord) : KeyDraft where
  volume := some key.volume
  bucket := some key.bucket
  name := some key.name
  fileName := some key.fileName
  owner := key.owner
  size := key.size
  created := some key.created
  modified := some key.modified
  replication := some key.replication
  encryption := key.encryption
  checksum := key.checksum
  isFile := key.isFile
  acls := key.acls.entries
  metadata := key.metadata
  tags := key.tags
  objectId := key.objectId
  parentId := key.parentId
  generation := key.generation
  expected := key.expected
  history := key.history

end ObjectLedger
