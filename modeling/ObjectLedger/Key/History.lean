import ObjectLedger.Key.Basic

/-! # The version history of a key

Blocks are only ever appended to the newest version. A new version either follows
the newest one or replaces the whole history as version 0.
-/

namespace ObjectLedger.KeyRecord

/-- The newest version group. -/
def latest? (key : KeyRecord) : Option VersionGroup := key.history.getLast?

/-- The number of the newest version. -/
def latestVersion? (key : KeyRecord) : Option UInt64 := key.latest?.map (·.version)

/-- The blocks of every version, oldest first. -/
def allBlocks (key : KeyRecord) : List Block := key.history.flatMap (·.blocks)

/-- The blocks of the newest version. -/
def latestBlocks (key : KeyRecord) : List Block := (key.latest?.map (·.blocks)).getD []

/-- The blocks that a reader sees: those of all versions where versions are kept, and
those of the newest version elsewhere. -/
def visibleBlocks (key : KeyRecord) (versioning : Bool) : List Block :=
  if versioning then key.allBlocks else key.latestBlocks

/-- The record modified at a time, if the modification counts. -/
def touched (key : KeyRecord) (time : Option UInt64) : KeyRecord :=
  { key with modified := time.getD key.modified }

/-- The history with its newest group changed. -/
def replaceLatest (history : List VersionGroup) (group : VersionGroup) : List VersionGroup :=
  history.dropLast ++ [group]

/-- The record with more blocks in its newest version, modified at a time or not. -/
def appendBlocks (key : KeyRecord) (blocks : List Block) (time : Option UInt64) :
    Except RecordError KeyRecord :=
  match key.latest? with
  | none => .error (.noVersion key.name)
  | some group =>
    .ok ({ key with history := replaceLatest key.history (group.append blocks) }.touched time)

/-- The record with a new version of the given blocks, and the version's number. Unless
older versions are kept, the new version is version 0 and the only one. -/
def addVersion (key : KeyRecord) (blocks : List Block) (time : Option UInt64)
    (keepOlder : Bool) : Except Overflow (KeyRecord × UInt64) := do
  let older := if keepOlder then key.history else []
  let group ← match older.getLast? with
    | some newest => newest.next blocks
    | none => pure (.ofBlocks 0 blocks false)
  pure ({ key with history := older ++ [group] }.touched time, group.version)

end ObjectLedger.KeyRecord
