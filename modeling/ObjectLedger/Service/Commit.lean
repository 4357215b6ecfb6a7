import ObjectLedger.Service.Session

/-! # Committing and deleting keys

A commit reconciles the report of a writer with the blocks allocated to its session, checks
the quota, writes the key if the stored record is still the one that was opened, and moves the
usage of the bucket. A commit whose usage update fails writes the replaced record back. Blocks
that no record refers to afterwards are handed back to the allocator.
-/

namespace ObjectLedger

/-- The result of a commit. -/
structure Commit where
  key : KeyRecord
  reconciliation : Reconciliation
  /-- The blocks handed back for deletion. -/
  released : List Block

/-- The bytes charged for some blocks under a replication: the replicated size of their total
length, clamped to the largest signed word. -/
def Replication.charge (replication : Replication) (blocks : List Block) :
    Except Overflow Int64 := do
  let length ← Word.sum (blocks.map (·.length))
  let size ← replication.replicatedSize length
  pure (Word.clampSigned size.toNat)

namespace Action

/-- The allocated blocks that a commit does not refer to: those without a match and, when the
report was taken as it is, those whose identity was not reported. -/
def unreferenced (outcome : Reconciliation) (allocated : List Block) (unchecked : Bool) :
    List Block :=
  if unchecked then
    outcome.uncommitted ++
      allocated.filter fun block => block.id ∉ outcome.committed.map (·.id)
  else outcome.uncommitted

/-- Growth of a bucket by a key has to stay within its quotas. -/
def checkQuota (volume bucket : String) (bytes keys : Int64) : Action Unit := do
  let record ← resolveBucket volume bucket
  ofRecord (record.checkBytes bytes)
  ofRecord (record.checkKeys keys)

/-- A committed key at a new generation. -/
def advanced (key : KeyRecord) : Action KeyRecord := do
  let generation ← generationAbove key.generation
  let key ← ofRecord (key.advanceGeneration generation)
  pure { key with expected := none }

/-- What has to be stored for a key to be written: the record of the expected generation, or
nothing. -/
def conditionOf (key : KeyRecord) : Precondition :=
  match key.expected with
  | some generation => .generation generation
  | none => .absent

/-- A committed key is written at a new generation, if the quotas allow it and the stored
record is still the expected one. -/
def writeCommitted (settings : Settings) (key : KeyRecord) (bytes keys : Int64) :
    Action KeyRecord := do
  if settings.enforceQuota then checkQuota key.volume key.bucket bytes keys
  let written ← advanced key
  writeKey written (conditionOf key)
  pure written

/-- The record that a commit replaced is stored again, unless the committed key was written
over since. -/
def rollBack (key : KeyRecord) (previous : Option KeyRecord) : Action Unit := do
  let condition := Precondition.generation key.generation
  match previous with
  | some old => writeKey old condition
  | none =>
    let _ ← deleteKey key.volume key.bucket key.name condition
    pure ()

/-- A report is committed to the key of a session. The session ends, whatever the outcome. -/
def commitKey (settings : Settings) (session : Session) (reported : List Block)
    (size : UInt64) (options : CommitOptions) : Action Commit := do
  if options.unchecked && !settings.allowUnchecked then fail (.settings .uncheckedCommit)
  let (key, outcome) ← ofRecord (session.key.commit reported options)
  let time ← now
  let key := { key with size, modified := time }
  let leftOver := unreferenced outcome session.allocated options.unchecked
  let replaced := match session.previous with
    | some old => if session.versioning then [] else old.allBlocks
    | none => []
  let added ← ofWord (key.replication.charge outcome.committed)
  let freed ← ofWord ((session.previous.getD key).replication.charge replaced)
  let bytes := added - freed
  let keys : Int64 := if session.previous.isSome then 0 else 1
  match ← attempt (writeCommitted settings key bytes keys) with
  | .error cause =>
    deleteBlocks (outcome.committed ++ leftOver)
    fail cause
  | .ok key =>
    match ← attempt (chargeUsage settings key.volume key.bucket bytes keys) with
    | .error cause =>
      match ← attempt (rollBack key session.previous) with
      | .ok () => deleteBlocks (outcome.committed ++ leftOver)
      | .error _ => deleteBlocks leftOver
      fail cause
    | .ok () =>
      let released := leftOver ++ replaced
      deleteBlocks released
      pure { key, reconciliation := outcome, released }

/-- A key is removed, and its usage and blocks are released. -/
def deleteKeyOf (settings : Settings) (volume bucket key : String) : Action KeyRecord := do
  let resolved ← resolveBucket volume bucket
  match ← deleteKey resolved.volume resolved.name key .unconditional with
  | none => fail (.keyNotFound volume bucket key)
  | some record =>
    let record := { record with encryption := none }
    let blocks := record.allBlocks
    let freed ← ofWord (record.replication.charge blocks)
    chargeUsage settings resolved.volume resolved.name (-freed) (-1)
    deleteBlocks blocks
    pure record

end Action

end ObjectLedger
