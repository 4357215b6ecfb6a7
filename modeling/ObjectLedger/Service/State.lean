import ObjectLedger.Store.Allocator
import ObjectLedger.Store.Records

/-! # The state of the service

The service works on a record store and a block allocator that may refuse calls. A schedule
of outages says, for each method and each call of it, whether the call goes through, fails
without effect, or, for an allocation, gives no blocks; any pattern of failures is a
schedule. An operation that fails or overflows leaves what it changed before: the state
survives every `Action`.
-/

namespace ObjectLedger

/-- The calls to the store and the allocator that may be refused. -/
inductive Method where
  | readKey
  | writeKey
  | deleteKey
  | readBucket
  | writeBucket
  | createBucket
  | allocateBlocks
  | deleteBlocks
deriving DecidableEq, Repr

/-- What becomes of a call. -/
inductive Verdict where
  | pass
  /-- The call fails and does nothing. -/
  | fail (cause : StoreError)
  /-- An allocation gives no blocks and does nothing; any other call goes through. -/
  | empty
deriving DecidableEq, Repr

/-- A schedule of outages, and the number of calls made to each method. -/
structure Outages where
  schedule : Method → Nat → Verdict
  calls : Method → Nat

namespace Outages

/-- No call is refused. -/
def never : Outages := ⟨fun _ _ => .pass, fun _ => 0⟩

/-- The schedule with one call to a method counted. -/
def count (outages : Outages) (method : Method) : Outages :=
  { outages with
    calls := fun other => if other = method then outages.calls other + 1 else outages.calls other }

/-- The schedule in which the next calls to a method go through, some calls after them get a
verdict, and all later ones go through. -/
def during (outages : Outages) (method : Method) (skip times : Nat) (verdict : Verdict) :
    Outages :=
  let first := outages.calls method + skip
  { outages with
    schedule := fun other call =>
      if other ≠ method then outages.schedule other call
      else if first ≤ call ∧ call < first + times then verdict
      else .pass }

/-- What becomes of the next call to a method. -/
def next (outages : Outages) (method : Method) : Verdict :=
  outages.schedule method (outages.calls method)

end Outages

/-- A source of times, and the number of times read from it. -/
structure Clock where
  reading : Nat → UInt64
  taken : Nat

/-- The state of the service. The counters hold the numbers that are given out next. -/
structure Service where
  records : Records
  allocator : Allocator
  nextSession : UInt64
  nextObjectId : UInt64
  nextGeneration : UInt64
  clock : Clock
  outages : Outages

/-- The service over an empty store and an allocator. -/
def Service.start (allocator : Allocator) (clock : Clock) (outages : Outages) : Service where
  records := .empty
  allocator
  nextSession := 1
  nextObjectId := 1
  nextGeneration := 1
  clock
  outages

/-- A step of the service, which may end without a result. -/
abbrev Action := ExceptT Fault (StateM Service)

namespace Action

variable {α : Type}

/-- The failure of an action. -/
def fail (cause : StoreError) : Action α := throw (.error cause)

/-- The result of a check on the store. -/
def ofStore : Except StoreError α → Action α
  | .ok value => pure value
  | .error cause => fail cause

/-- The result of a check on a record. -/
def ofRecord : Except RecordError α → Action α
  | .ok value => pure value
  | .error cause => fail (.record cause)

/-- The result of exact arithmetic. -/
def ofWord : Except Overflow α → Action α
  | .ok value => pure value
  | .error cause => throw (.overflow cause)

/-- The result of an action, or the error that it failed with. An overflow is not caught. -/
def attempt (action : Action α) : Action (Except StoreError α) :=
  tryCatch (.ok <$> action) fun
    | .error cause => pure (.error cause)
    | .overflow cause => throw (.overflow cause)

/-- The next time of the clock. -/
def now : Action UInt64 := do
  let service ← get
  set { service with clock := { service.clock with taken := service.clock.taken + 1 } }
  pure (service.clock.reading service.clock.taken)

/-- The verdict on the next call to a method, with the call counted. -/
def verdict (method : Method) : Action Verdict := do
  let service ← get
  set { service with outages := service.outages.count method }
  pure (service.outages.next method)

/-- A call to a method, unless it is refused. -/
def call (method : Method) (action : Action α) : Action α := do
  match ← verdict method with
  | .fail cause => fail cause
  | _ => action

/-- A change of the records that may fail. -/
def changeRecords (change : Records → Except StoreError Records) : Action Unit := do
  let service ← get
  let records ← ofStore (change service.records)
  set { service with records }

/-- The key stored under a name. -/
def readKey (volume bucket key : String) : Action (Option KeyRecord) :=
  call .readKey do
    let time ← now
    ofStore ((← get).records.readKey time volume bucket key)

/-- A key is stored under its own name if the condition holds. -/
def writeKey (key : KeyRecord) (condition : Precondition) : Action Unit :=
  call .writeKey (changeRecords (·.writeKey key condition))

/-- A key is removed if the condition holds, and read only then. -/
def deleteKey (volume bucket key : String) (condition : Precondition) :
    Action (Option KeyRecord) :=
  call .deleteKey do
    let service ← get
    let (removed, records) ← ofStore (service.records.takeKey volume bucket key condition)
    set { service with records }
    let time ← now
    removed.mapM fun stored => ofStore ((KeyRecord.ofPersisted stored.bytes time).mapError .codec)

/-- The bucket stored under a name. -/
def readBucket (volume bucket : String) : Action (Option BucketRecord) :=
  call .readBucket do
    let time ← now
    ofStore ((← get).records.readBucket time volume bucket)

/-- A bucket is stored under its own name if the condition holds. -/
def writeBucket (bucket : BucketRecord) (condition : Precondition) : Action Unit :=
  call .writeBucket (changeRecords (·.writeBucket bucket condition))

/-- A new bucket is stored. -/
def storeBucket (bucket : BucketRecord) : Action Unit :=
  call .createBucket (changeRecords (·.createBucket bucket))

/-- New live blocks. -/
def allocateBlocks (replication : Replication) (count : Nat) (size : UInt64) :
    Action (List Block) := do
  match ← verdict .allocateBlocks with
  | .fail cause => fail cause
  | .empty => pure []
  | .pass =>
    let service ← get
    let (blocks, allocator) := service.allocator.allocate replication count size
    set { service with allocator }
    match blocks with
    | .ok blocks => pure blocks
    | .error fault => throw fault

/-- Some blocks are handed back for deletion. -/
def deleteBlocks (blocks : List Block) : Action Unit :=
  call .deleteBlocks (modify fun service =>
    { service with allocator := service.allocator.delete blocks })

/-- The next number of a session. -/
def takeSession : Action UInt64 :=
  modifyGet fun service =>
    (service.nextSession, { service with nextSession := service.nextSession + 1 })

/-- The next object identifier. -/
def takeObjectId : Action UInt64 :=
  modifyGet fun service =>
    (service.nextObjectId, { service with nextObjectId := service.nextObjectId + 1 })

/-- The next generation of the counter. -/
def takeGeneration : Action UInt64 :=
  modifyGet fun service =>
    (service.nextGeneration, { service with nextGeneration := service.nextGeneration + 1 })

/-- A generation above the current one of a record and above all given out before. -/
def generationAbove (current : UInt64) : Action UInt64 := do
  let candidate ← takeGeneration
  let generation := max candidate (← ofWord (Word.add current 1))
  let following ← ofWord (Word.add generation 1)
  modify fun service => { service with nextGeneration := max service.nextGeneration following }
  pure generation

end Action

end ObjectLedger
