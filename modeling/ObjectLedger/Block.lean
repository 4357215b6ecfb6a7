import ObjectLedger.Text.Numeral

/-! # Blocks

A block is identified by its container and its number within the container.
Nothing else takes part in its identity: the range it covers, the version it was
written in and the pipeline that places its replicas may all change.
-/

namespace ObjectLedger

/-- The identity of a physical block. -/
structure BlockId where
  container : UInt64
  number : UInt64
deriving DecidableEq, Repr

namespace BlockId

/-- The written form of a block identity. -/
def text (id : BlockId) : String := s!"conID: {id.container} locID: {id.number}"

def debugText (id : BlockId) : String := s!"BlockId({id.container}:{id.number})"

/-- Identities are ordered by container, then by number. -/
def compare (left right : BlockId) : Ordering :=
  (Ord.compare left.container right.container).then (Ord.compare left.number right.number)

end BlockId

/-- The identity of a replica pipeline: sixteen bytes. -/
structure PipelineId where
  bytes : Vector UInt8 16
deriving DecidableEq

namespace PipelineId

/-- The groups of hexadecimal digits, separated by hyphens. -/
def text (id : PipelineId) : String :=
  let bytes := id.bytes.toList
  let group (start count : Nat) := Text.hexBytes ((bytes.drop start).take count)
  group 0 4 ++ "-" ++ group 4 2 ++ "-" ++ group 6 2 ++ "-" ++ group 8 2 ++ "-" ++ group 10 6

/-- The pipeline identity of a text, with hyphens at any place. -/
def ofText? (text : String) : Option PipelineId :=
  (Text.readHex? (text.toList.filter (· ≠ '-'))).bind fun bytes =>
    if size : bytes.length = 16 then some ⟨⟨bytes.toArray, by simpa using size⟩⟩ else none

def debugText (id : PipelineId) : String := "PipelineId(" ++ id.text ++ ")"

end PipelineId

/-- The nodes that hold the replicas of a block, in replica order. -/
structure Pipeline where
  id : PipelineId
  nodes : List String
  leader : Option String
deriving DecidableEq

/-- A pipeline led by its first node. -/
def Pipeline.ledByFirst (id : PipelineId) (nodes : List String) : Pipeline :=
  ⟨id, nodes, nodes.head?⟩

/-- The location of one block of an object's data. -/
structure Block where
  id : BlockId
  offset : UInt64
  length : UInt64
  version : UInt64
  pipeline : Option Pipeline
deriving DecidableEq

namespace Block

/-- A block with an empty range and no placement. -/
def bare (id : BlockId) : Block := ⟨id, 0, 0, 0, none⟩

/-- The block as written in a version. -/
def stamp (version : UInt64) (block : Block) : Block := { block with version }

/-- The block without its placement. -/
def withoutPipeline (block : Block) : Block := { block with pipeline := none }

/-- Whether two locations name the same physical block. -/
def isSame (block other : Block) : Bool := block.id == other.id

/-- The written form of a block. -/
def text (block : Block) : String :=
  "\x7bblockID=\x7b" ++ block.id.text ++ "\x7d, length=" ++ toString block.length ++
    ", offset=" ++ toString block.offset ++ ", createVersion=" ++ toString block.version ++ "\x7d"

end Block

end ObjectLedger
