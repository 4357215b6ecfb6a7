import ObjectLedger.Service.State

/-! # Buckets of the service

Creating buckets, following links to them, and moving the counters of their usage. A
usage update reads the bucket anew for every attempt and tries again only if the bucket was
changed in between (`Action.updateUsage`).
-/

namespace ObjectLedger.Action

/-- A new bucket with an identifier, an update identifier and times of its own. -/
def createBucket (draft : BucketDraft) : Action BucketRecord := do
  let time ← now
  let objectId ← takeObjectId
  let updateId ← takeGeneration
  let draft := { draft with objectId, updateId, created := some time, modified := some time }
  match draft.build time with
  | .error cause => fail (.record (.malformed cause))
  | .ok bucket =>
    storeBucket bucket
    pure bucket

/-- The bucket stored under a name, which has to be there. -/
def requireBucket (volume bucket : String) : Action BucketRecord := do
  match ← readBucket volume bucket with
  | some record => pure record
  | none => fail (.bucketNotFound volume bucket)

/-- The bucket of a name, or the bucket that a link of that name leads to. A link may not
lead to another link. -/
def resolveBucket (volume bucket : String) : Action BucketRecord := do
  let record ← requireBucket volume bucket
  match record.source? with
  | none => pure record
  | some (sourceVolume, sourceBucket) =>
    let source ← requireBucket sourceVolume sourceBucket
    if source.isLink then fail (.unresolvedLink volume bucket) else pure source

/-- One attempt at moving the usage of a bucket. The result is the failure of the write, and
every other failure ends the update. -/
def tryUsage (volume bucket : String) (bytes keys : Int64) : Action (Except StoreError Unit) := do
  let record ← resolveBucket volume bucket
  let updateId ← generationAbove record.updateId
  let time ← now
  let charged := { (record.charge bytes keys).advanceUpdate updateId with modified := time }
  attempt (writeBucket charged (.generation record.updateId))

/-- The usage of a bucket is moved by the given deltas, with so many more attempts after a
concurrent change of the bucket. -/
def updateUsage (volume bucket : String) (bytes keys : Int64) : (more : Nat) → Action Unit
  | 0 => do ofStore (← tryUsage volume bucket bytes keys)
  | more + 1 => do
    match ← tryUsage volume bucket bytes keys with
    | .ok () => pure ()
    | .error cause =>
      if cause.isRetryable then updateUsage volume bucket bytes keys more else fail cause

/-- The usage of a bucket is moved in as many attempts as the settings allow. -/
def chargeUsage (settings : Settings) (volume bucket : String) (bytes keys : Int64) :
    Action Unit :=
  updateUsage volume bucket bytes keys (settings.usageAttempts.toNat - 1)

end ObjectLedger.Action
