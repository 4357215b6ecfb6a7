import ObjectLedger.Acl.Set
import ObjectLedger.Checksum
import ObjectLedger.Dictionary
import ObjectLedger.Encryption
import ObjectLedger.Text.Blank
import ObjectLedger.VersionGroup

/-! # Key records

A key record is the metadata of one stored object. Its history lists the version
groups from oldest to newest. The generation is the token of optimistic
concurrency: it only moves forward (`KeyRecord.advanceGeneration`).
-/

namespace ObjectLedger

/-- Names with values. -/
abbrev Labels := Dictionary String

/-- The metadata of one stored object. -/
structure KeyRecord where
  volume : String
  bucket : String
  name : String
  /-- The last component of the name, or empty when it is not tracked. -/
  fileName : String
  owner : Option String
  size : UInt64
  created : UInt64
  modified : UInt64
  replication : Replication
  encryption : Option KeyEncryption
  checksum : Option Checksum
  isFile : Bool
  acls : AclSet
  metadata : Labels
  tags : Labels
  objectId : UInt64
  parentId : UInt64
  generation : UInt64
  /-- The generation that the stored record must still have when this one is written. -/
  expected : Option UInt64
  history : List VersionGroup
deriving DecidableEq

namespace KeyRecord

/-- The separator between the components of a name. -/
def separator : Char := '/'

/-- The label present while a client holds the key open for synchronised writes. -/
def holdLabel : String := "hsyncClientId"

/-- Whether a client holds the key open. -/
def isHeld (key : KeyRecord) : Bool := key.metadata.contains holdLabel

/-- The path in a directory tree: the file name below the parent's identifier, or
the whole name when the file name is blank. -/
def path (key : KeyRecord) : String :=
  if key.fileName.toList.all Text.isBlank then key.name
  else toString key.parentId ++ String.singleton separator ++ key.fileName

/-- The bytes that storage nodes hold for the key. -/
def replicatedSize (key : KeyRecord) : Except Overflow UInt64 :=
  key.replication.replicatedSize key.size

/-- The record at a generation that is not before its own. -/
def advanceGeneration (key : KeyRecord) (generation : UInt64) : Except RecordError KeyRecord :=
  if key.generation ≤ generation then .ok { key with generation }
  else .error (.generationRegression key.generation generation)

/-- The record with a grant, and whether it changed. -/
def addAcl (key : KeyRecord) (acl : Acl) : KeyRecord × Bool :=
  let (acls, changed) := key.acls.add acl
  ({ key with acls }, changed)

/-- The record without the rights of an entry, and whether it changed. -/
def removeAcl (key : KeyRecord) (acl : Acl) : KeyRecord × Bool :=
  let (acls, changed) := key.acls.remove acl
  ({ key with acls }, changed)

/-- The record with other entries, and whether they differ. -/
def setAcls (key : KeyRecord) (entries : List Acl) : KeyRecord × Bool :=
  let (acls, changed) := key.acls.replace entries
  ({ key with acls }, changed)

/-- The record with a label. -/
def addLabel (key : KeyRecord) (label value : String) : KeyRecord :=
  { key with metadata := key.metadata.insert label value }

/-- The record without a label, and the label's value. -/
def removeLabel (key : KeyRecord) (label : String) : KeyRecord × Option String :=
  ({ key with metadata := key.metadata.erase label }, key.metadata.get? label)

/-- The optional parts of a comparison of key records. -/
structure Comparison where
  path : Bool
  history : Bool
  modified : Bool
  generation : Bool
  owner : Bool
deriving DecidableEq, Repr

/-- The comparison of all optional parts. -/
def Comparison.all : Comparison := ⟨true, true, true, true, true⟩

/-- The comparison of contents alone. -/
def Comparison.content : Comparison := ⟨false, false, false, false, false⟩

/-- Whether two records agree in size, creation, place, replication, labels, entries
and identifier, and in the optional parts of a comparison. -/
def agrees (key other : KeyRecord) (comparison : Comparison) : Bool :=
  key.size == other.size && key.created == other.created && key.volume == other.volume &&
  key.bucket == other.bucket && key.replication == other.replication &&
  key.metadata == other.metadata && key.acls == other.acls && key.tags == other.tags &&
  key.objectId == other.objectId &&
  (!comparison.generation || key.generation == other.generation) &&
  (!comparison.modified || key.modified == other.modified) &&
  (!comparison.path || (key.parentId == other.parentId && key.name == other.name)) &&
  (!comparison.history || key.history == other.history) &&
  (!comparison.owner || key.owner == other.owner)

end KeyRecord

end ObjectLedger
