import ObjectLedger.Acl.Set
import ObjectLedger.Checksum
import ObjectLedger.Encryption
import ObjectLedger.Storage
import ObjectLedger.VersionGroup
import ObjectLedger.Wire.Basic

/-! # Wire forms of the parts of records

A value of one of several kinds follows the place of its kind. The fields of blocks
and version groups may each be absent, so that an absent field and a zero stay apart;
a block needs an identity and a group a version (`BlockForm.block`,
`GroupForm.group`).
-/

namespace ObjectLedger

namespace Wire

/-- A replication after the place of its kind. -/
def replication : Wire Replication where
  put
    | .ratis factor => half.put 0 ++ byte.put factor
    | .standalone factor => half.put 1 ++ byte.put factor
    | .erasureCoded code =>
      half.put 2 ++ (oneOf [ErasureCodec.reedSolomon, .xor]).put code.codec ++
        half.put code.data ++ half.put code.parity ++ half.put code.chunkSize
  get bytes := do
    let (kind, bytes) ← half.get bytes
    match kind.toNat with
    | 0 =>
      let (factor, rest) ← byte.get bytes
      pure (.ratis factor, rest)
    | 1 =>
      let (factor, rest) ← byte.get bytes
      pure (.standalone factor, rest)
    | 2 =>
      let (codec, bytes) ← (oneOf [ErasureCodec.reedSolomon, .xor]).get bytes
      let (data, bytes) ← half.get bytes
      let (parity, bytes) ← half.get bytes
      let (chunkSize, rest) ← half.get bytes
      pure (.erasureCoded ⟨codec, data, parity, chunkSize⟩, rest)
    | _ => none

def crcKind : Wire CrcKind := oneOf [.crc32, .crc32c]

/-- A checksum after the place of its kind. -/
def checksum : Wire Checksum where
  put
    | .digest crc bytesPerCrc crcPerBlock md5 =>
      half.put 0 ++ crcKind.put crc ++ half.put bytesPerCrc ++ word.put crcPerBlock ++
        (exactly 16).put md5
    | .composite crc bytesPerCrc value =>
      half.put 1 ++ crcKind.put crc ++ half.put bytesPerCrc ++ half.put value
  get bytes := do
    let (kind, bytes) ← half.get bytes
    match kind.toNat with
    | 0 =>
      let (crc, bytes) ← crcKind.get bytes
      let (bytesPerCrc, bytes) ← half.get bytes
      let (crcPerBlock, bytes) ← word.get bytes
      let (md5, rest) ← (exactly 16).get bytes
      pure (.digest crc bytesPerCrc crcPerBlock md5, rest)
    | 1 =>
      let (crc, bytes) ← crcKind.get bytes
      let (bytesPerCrc, bytes) ← half.get bytes
      let (value, rest) ← half.get bytes
      pure (.composite crc bytesPerCrc value, rest)
    | _ => none

def cipherSuite : Wire CipherSuite := oneOf [.aesCounter, .unknown]

def keyEncryption : Wire KeyEncryption :=
  (cipherSuite.pair <| bytes.pair <| bytes.pair <| text.pair text).map
    (fun key => (key.suite, key.wrappedKey, key.initialVector, key.keyName, key.keyVersion))
    (fun (suite, wrappedKey, initialVector, keyName, keyVersion) =>
      ⟨suite, wrappedKey, initialVector, keyName, keyVersion⟩)

def bucketEncryption : Wire BucketEncryption :=
  (text.pair cipherSuite).map (fun key => (key.keyName, key.suite))
    (fun (keyName, suite) => ⟨keyName, suite⟩)

/-- An access-control entry. All sixteen bits of its rights are kept. -/
def acl : Wire Acl :=
  ((oneOf [IdentityKind.user, .group, .world, .anonymous]).pair <| text.pair <|
      quarter.pair (oneOf [Scope.access, .default])).map
    (fun acl => (acl.kind, acl.name, acl.rights.bits, acl.scope))
    (fun (kind, name, bits, scope) => ⟨kind, name, ⟨bits⟩, scope⟩)

def medium : Wire StorageMedium := oneOf [.ramDisk, .ssd, .disk, .archive]

def layout : Wire BucketLayout := oneOf [.objectStore, .fileSystemOptimized, .legacy]

def pipeline : Wire Pipeline :=
  ((counted 16).pair <| text.list.pair text.optional).map
    (fun pipeline => (pipeline.id.bytes, pipeline.nodes, pipeline.leader))
    (fun (id, nodes, leader) => ⟨⟨id⟩, nodes, leader⟩)

end Wire

/-- The fields of a block, each of which may be absent. -/
structure BlockForm where
  container : Option UInt64
  number : Option UInt64
  offset : Option UInt64
  length : Option UInt64
  version : Option UInt64
  pipeline : Option Pipeline
deriving DecidableEq

namespace BlockForm

/-- The fields of a block, with its placement or without. -/
def ofBlock (placed : Bool) (block : Block) : BlockForm where
  container := some block.id.container
  number := some block.id.number
  offset := some block.offset
  length := some block.length
  version := some block.version
  pipeline := if placed then block.pipeline else none

/-- The block with the given fields. -/
def block (form : BlockForm) : Except Malformation Block := do
  let some container := form.container | throw (.missing "block container id")
  let some number := form.number | throw (.missing "block local id")
  pure
    { id := ⟨container, number⟩
      offset := form.offset.getD 0
      length := form.length.getD 0
      version := form.version.getD 0
      pipeline := form.pipeline }

end BlockForm

def Wire.blockForm : Wire BlockForm :=
  (word.optional.pair <| word.optional.pair <| word.optional.pair <| word.optional.pair <|
      word.optional.pair pipeline.optional).map
    (fun form => (form.container, form.number, form.offset, form.length, form.version,
      form.pipeline))
    (fun (container, number, offset, length, version, pipeline) =>
      ⟨container, number, offset, length, version, pipeline⟩)

/-- The fields of a version group, of which all but the blocks may be absent. -/
structure GroupForm where
  version : Option UInt64
  blocks : List BlockForm
  multipart : Option Bool
deriving DecidableEq

namespace GroupForm

/-- The fields of a version group, with the placement of its blocks or without. -/
def ofGroup (placed : Bool) (group : VersionGroup) : GroupForm where
  version := some group.version
  blocks := group.blocks.map (BlockForm.ofBlock placed)
  multipart := some group.multipart

/-- The version group with the given fields. -/
def group (form : GroupForm) : Except Malformation VersionGroup := do
  let some version := form.version | throw (.missing "version group number")
  let blocks ← form.blocks.mapM BlockForm.block
  pure (.ofBlocks version blocks (form.multipart.getD false))

end GroupForm

def Wire.groupForm : Wire GroupForm :=
  (word.optional.pair <| blockForm.list.pair truth.optional).map
    (fun form => (form.version, form.blocks, form.multipart))
    (fun (version, blocks, multipart) => ⟨version, blocks, multipart⟩)

end ObjectLedger
