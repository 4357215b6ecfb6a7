import ObjectLedger.Key.Draft
import ObjectLedger.Text.Fields
import ObjectLedger.Wire.Field

/-! # The wire form of key records

All fields of a key record but its lists and dictionaries may be absent on the wire.
The file name is not written: it is the last component of the name.
-/

namespace ObjectLedger

/-- The last component of a name. -/
def KeyRecord.lastComponent (name : String) : String :=
  String.ofList (Text.lastField KeyRecord.separator name.toList)

/-- The fields of a key record on the wire. -/
structure KeyForm where
  volume : Option String
  bucket : Option String
  name : Option String
  size : Option UInt64
  created : Option UInt64
  modified : Option UInt64
  replication : Option Replication
  encryption : Option KeyEncryption
  checksum : Option Checksum
  isFile : Option Bool
  owner : Option String
  acls : List Acl
  metadata : Labels
  tags : Labels
  objectId : Option UInt64
  parentId : Option UInt64
  generation : Option UInt64
  expected : Option UInt64
  history : List GroupForm
  /-- The newest version of a record that is sent, or -1 without versions. -/
  latest : Option Int64
deriving DecidableEq

namespace KeyForm

/-- The fields of a record with the given groups. -/
def ofRecord (key : KeyRecord) (history : List GroupForm) : KeyForm where
  volume := some key.volume
  bucket := some key.bucket
  name := some key.name
  size := some key.size
  created := some key.created
  modified := some key.modified
  replication := some key.replication
  encryption := key.encryption
  checksum := key.checksum
  isFile := some key.isFile
  owner := key.owner
  acls := key.acls.entries
  metadata := key.metadata
  tags := key.tags
  objectId := some key.objectId
  parentId := some key.parentId
  generation := some key.generation
  expected := key.expected
  history
  latest := none

/-- The record with the given fields, or what is wrong with them. -/
def record (form : KeyForm) (now : UInt64) : Except Malformation KeyRecord := do
  let history ← form.history.mapM GroupForm.group
  let draft : KeyDraft :=
    { volume := form.volume
      bucket := form.bucket
      name := form.name
      fileName := form.name.map KeyRecord.lastComponent
      owner := form.owner
      size := form.size.getD 0
      created := form.created
      modified := form.modified
      replication := form.replication
      encryption := form.encryption
      checksum := form.checksum
      isFile := form.isFile.getD false
      acls := form.acls
      metadata := form.metadata
      tags := form.tags
      objectId := form.objectId.getD 0
      parentId := form.parentId.getD 0
      generation := form.generation.getD 0
      expected := form.expected
      history }
  draft.build now

end KeyForm

def Wire.keyForm : Wire KeyForm :=
  (text.optional.pair <| text.optional.pair <| text.optional.pair <| word.optional.pair <|
      word.optional.pair <| word.optional.pair <| replication.optional.pair <|
      keyEncryption.optional.pair <| checksum.optional.pair <| truth.optional.pair <|
      text.optional.pair <| acl.list.pair <| (dictionary text).pair <| (dictionary text).pair <|
      word.optional.pair <| word.optional.pair <| word.optional.pair <| word.optional.pair <|
      groupForm.list.pair signed.optional).map
    (fun form => (form.volume, form.bucket, form.name, form.size, form.created, form.modified,
      form.replication, form.encryption, form.checksum, form.isFile, form.owner, form.acls,
      form.metadata, form.tags, form.objectId, form.parentId, form.generation, form.expected,
      form.history, form.latest))
    (fun (volume, bucket, name, size, created, modified, replication, encryption, checksum,
        isFile, owner, acls, metadata, tags, objectId, parentId, generation, expected,
        history, latest) =>
      { volume, bucket, name, size, created, modified, replication, encryption, checksum,
        isFile, owner, acls, metadata, tags, objectId, parentId, generation, expected,
        history, latest })

end ObjectLedger
