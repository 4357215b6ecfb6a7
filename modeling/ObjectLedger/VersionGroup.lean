import ObjectLedger.Block
import ObjectLedger.RecordError
import ObjectLedger.Word

/-! # The blocks of one version

A version group holds the blocks of one version of a key. Every operation that
puts blocks into a group stamps them with the group's version, so the blocks of a
group always carry it (`VersionGroup.Stamped`).
-/

namespace ObjectLedger

/-- The blocks of one version of a key. -/
structure VersionGroup where
  version : UInt64
  blocks : List Block
  multipart : Bool
deriving DecidableEq

namespace VersionGroup

/-- A group of blocks stamped with its version. -/
def ofBlocks (version : UInt64) (blocks : List Block) (multipart : Bool) : VersionGroup :=
  ⟨version, blocks.map (Block.stamp version), multipart⟩

/-- The group one version above, with blocks of its own. -/
def next (group : VersionGroup) (blocks : List Block) : Except Overflow VersionGroup := do
  let version ← Word.add group.version 1
  pure (ofBlocks version blocks false)

/-- The group with more blocks at its end. -/
def append (group : VersionGroup) (blocks : List Block) : VersionGroup :=
  { group with blocks := group.blocks ++ blocks.map (Block.stamp group.version) }

/-- An edit of a group has to name the group's version. -/
def checkVersion (group : VersionGroup) (version : UInt64) : Except RecordError Unit :=
  if version = group.version then .ok () else .error (.versionMismatch group.version version)

/-- The blocks of a named version, and the group without them. -/
def takeBlocks (group : VersionGroup) (version : UInt64) :
    Except RecordError (List Block × VersionGroup) := do
  group.checkVersion version
  pure (group.blocks, { group with blocks := [] })

/-- The group with more blocks of a named version. -/
def addBlocks (group : VersionGroup) (version : UInt64) (blocks : List Block) :
    Except RecordError VersionGroup := do
  group.checkVersion version
  pure (group.append blocks)

/-- The total length of the blocks. -/
def totalLength (group : VersionGroup) : Except Overflow UInt64 :=
  Word.sum (group.blocks.map (·.length))

/-- The group without the placement of its blocks. -/
def withoutPipelines (group : VersionGroup) : VersionGroup :=
  { group with blocks := group.blocks.map Block.withoutPipeline }

/-- Every block of the group carries its version. -/
def Stamped (group : VersionGroup) : Prop := ∀ block ∈ group.blocks, block.version = group.version

/-- A new group marks its blocks with its version. -/
theorem ofBlocks_stamped (version : UInt64) (blocks : List Block) (multipart : Bool) :
    (ofBlocks version blocks multipart).Stamped := by
  intro block member
  obtain ⟨source, _, rfl⟩ := List.mem_map.1 member
  rfl

/-- Appended blocks are marked like the others. -/
theorem append_stamped {group : VersionGroup} (stamped : group.Stamped) (blocks : List Block) :
    (group.append blocks).Stamped := by
  intro block member
  rcases List.mem_append.1 member with old | new
  · exact stamped block old
  · obtain ⟨source, _, rfl⟩ := List.mem_map.1 new
    rfl

end VersionGroup

end ObjectLedger
