import ObjectLedger.Block
import ObjectLedger.Store.Error

/-! # The block allocator

Blocks go to the containers in turn. Their numbers come from one counter that all containers
share, so an identity is not given twice. Deleted blocks are logged in the order of their
deletion, whether they were live or not.
-/

namespace ObjectLedger

/-- The state of the block allocator. -/
structure Allocator where
  containers : UInt64
  nextContainer : UInt64
  nextNumber : UInt64
  /-- The source of pipeline identities. -/
  pipelines : Nat → PipelineId
  /-- The number of pipeline identities taken from the source. -/
  drawn : Nat
  /-- The blocks given out and not deleted since. -/
  live : List BlockId
  /-- Every deleted block, in the order of deletion. -/
  deleted : List BlockId

namespace Allocator

/-- An allocator over some containers, numbered from 1. -/
def new (containers : UInt64) (pipelines : Nat → PipelineId) : Except StoreError Allocator :=
  if containers = 0 then .error (.settings .noContainer)
  else
    .ok
      { containers
        nextContainer := 0
        nextNumber := 1
        pipelines
        drawn := 0
        live := []
        deleted := [] }

/-- A new block identity. -/
def nextId (allocator : Allocator) : BlockId × Allocator :=
  (⟨allocator.nextContainer % allocator.containers + 1, allocator.nextNumber⟩,
    { allocator with
      nextContainer := allocator.nextContainer + 1
      nextNumber := allocator.nextNumber + 1 })

/-- The nodes of a container that hold the replicas of a block. -/
def nodes (container : UInt64) (count : UInt32) : List String :=
  (List.range count.toNat).map fun place => s!"dn{container}-{place + 1}"

/-- A new block, placed on as many nodes as the replication requires. The identity is taken
even if the number of nodes overflows. -/
def place (allocator : Allocator) (replication : Replication) (size : UInt64) :
    Except Overflow Block × Allocator :=
  let (id, allocator) := allocator.nextId
  match replication.requiredNodes with
  | .error cause => (.error cause, allocator)
  | .ok count =>
    let pipeline := Pipeline.ledByFirst (allocator.pipelines allocator.drawn)
      (nodes id.container count)
    (.ok { Block.bare id with length := size, pipeline := some pipeline },
      { allocator with drawn := allocator.drawn + 1 })

/-- A number of new blocks. -/
def placeMany (replication : Replication) (size : UInt64) :
    (count : Nat) → Allocator → Except Overflow (List Block) × Allocator
  | 0, allocator => (.ok [], allocator)
  | count + 1, allocator =>
    match allocator.place replication size with
    | (.error cause, allocator) => (.error cause, allocator)
    | (.ok block, allocator) =>
      match placeMany replication size count allocator with
      | (.error cause, allocator) => (.error cause, allocator)
      | (.ok blocks, allocator) => (.ok (block :: blocks), allocator)

/-- A number of new live blocks of the given size under a usable replication. -/
def allocate (allocator : Allocator) (replication : Replication) (count : Nat) (size : UInt64) :
    Except Fault (List Block) × Allocator :=
  match replication.validate with
  | .error cause => (.error (.error (.settings (.replication cause))), allocator)
  | .ok () =>
    match placeMany replication size count allocator with
    | (.error cause, allocator) => (.error (.overflow cause), allocator)
    | (.ok blocks, allocator) =>
      (.ok blocks, { allocator with live := allocator.live ++ blocks.map (·.id) })

/-- The allocator with some blocks deleted. -/
def delete (allocator : Allocator) (blocks : List Block) : Allocator :=
  let ids := blocks.map (·.id)
  { allocator with
    live := allocator.live.filter (· ∉ ids)
    deleted := allocator.deleted ++ ids }

/-- The live blocks in the order of their identities. -/
def liveInOrder (allocator : Allocator) : List BlockId :=
  allocator.live.mergeSort fun left right => (left.compare right).isLE

/-- Whether a block is live. -/
def isLive (allocator : Allocator) (id : BlockId) : Bool := allocator.live.contains id

end Allocator

end ObjectLedger
