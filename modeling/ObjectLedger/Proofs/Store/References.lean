import ObjectLedger.Proofs.Key.History
import ObjectLedger.Proofs.Store.Records

/-! # Blocks that stored keys refer to

The identities in the frames of a store, each as often as it occurs, and how a written or a
dropped key changes their number.
-/

namespace ObjectLedger

/-- The identities of the blocks of every version of a stored key. -/
def Stored.blockIds (stored : Stored) : List BlockId :=
  match KeyRecord.ofPersisted stored.bytes 0 with
  | .ok key => key.allBlocks.map (·.id)
  | .error _ => []

/-- The identities of the blocks of every version of every stored key. -/
def Records.blockIds (records : Records) : List BlockId :=
  records.keys.entries.flatMap fun entry => entry.2.blockIds

/-- The keys alone refer to blocks. -/
theorem Records.blockIds_of_keys {records other : Records} (same : records.keys = other.keys) :
    records.blockIds = other.blockIds := by
  rw [blockIds, blockIds, same]

/-- Leaving out the placement of blocks keeps their identifiers. -/
theorem KeyRecord.ids_asStored (key : KeyRecord) :
    key.asStored.allBlocks.map (·.id) = key.allBlocks.map (·.id) := by
  unfold allBlocks asStored
  rw [List.flatMap_map, List.map_flatMap, List.map_flatMap]
  simp only [VersionGroup.ids_withoutPipelines]

/-- The frame of a key refers to the blocks of the key. -/
theorem Stored.HoldsKey.blockIds {stored : Stored} {path : String} {key : KeyRecord}
    (holds : stored.HoldsKey path key) : stored.blockIds = key.allBlocks.map (·.id) := by
  unfold Stored.blockIds
  rw [holds.ofPersisted]

namespace Records

variable {records : Records}

/-- How often an identity occurs in what stands under a path. -/
def countAt (records : Records) (path : String) (id : BlockId) : Nat :=
  (((records.keys.get? path).map Stored.blockIds).getD []).count id

/-- A path refers to what its frame does. -/
theorem countAt_of_found {path : String} {stored : Stored}
    (found : records.keys.get? path = some stored) (id : BlockId) :
    records.countAt path id = stored.blockIds.count id := by
  rw [countAt, found]
  rfl

/-- A path without a frame refers to nothing. -/
theorem countAt_of_absent {path : String} (absent : records.keys.get? path = none)
    (id : BlockId) : records.countAt path id = 0 := by
  rw [countAt, absent]
  rfl

/-- Dropping a key drops the references of its frame. -/
theorem count_dropKey (records : Records) (path : String) (id : BlockId) :
    (records.dropKey path).blockIds.count id + records.countAt path id =
      records.blockIds.count id := by
  cases found : records.keys.get? path with
  | none =>
      rw [countAt_of_absent found]
      unfold dropKey
      rw [Dictionary.erase_of_absent found]
      rfl
  | some stored =>
      rw [countAt_of_found found]
      have parted := (Dictionary.entries_perm_of_get? found).flatMap_right
        (fun entry => entry.2.blockIds)
      have counted := parted.count_eq id
      rw [List.flatMap_cons, List.count_append] at counted
      unfold blockIds
      rw [counted, Nat.add_comm]
      rfl

/-- Writing a key puts the references of its frame in the place of those that stood there. -/
theorem count_putKey (records : Records) {key : KeyRecord} (wellFormed : key.WellFormed)
    {frame : List UInt8} (persisted : key.persist = .ok frame) (id : BlockId) :
    (records.putKey key frame).blockIds.count id +
        records.countAt (keyPath key.volume key.bucket key.name) id =
      records.blockIds.count id + (key.allBlocks.map (·.id)).count id := by
  have dropped : ((records.keys.erase (keyPath key.volume key.bucket key.name)).entries.flatMap
      fun entry => entry.2.blockIds).count id +
        records.countAt (keyPath key.volume key.bucket key.name) id =
      records.blockIds.count id :=
    records.count_dropKey (keyPath key.volume key.bucket key.name) id
  have inserted := (Dictionary.entries_insert_perm records.keys
    (keyPath key.volume key.bucket key.name) ⟨key.generation, frame⟩).flatMap_right
      (fun entry => entry.2.blockIds)
  have counted := inserted.count_eq id
  have written := (Stored.holdsKey_asStored wellFormed persisted).blockIds
  rw [KeyRecord.ids_asStored] at written
  rw [List.flatMap_cons, List.count_append, written] at counted
  change ((records.keys.insert (keyPath key.volume key.bucket key.name)
    ⟨key.generation, frame⟩).entries.flatMap fun entry => entry.2.blockIds).count id + _ = _
  omega

end Records

end ObjectLedger
