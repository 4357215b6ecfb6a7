import ObjectLedger.Proofs.Service.Call
import ObjectLedger.Service.Commit

/-! # Runs of the service

Writers create buckets, open keys, ask for blocks, commit and delete, one operation after the
other and in any order (`Operation`). Any number of sessions is open at a time; a session keeps
its place among those ever opened, and committing ends it whatever comes of it
(`World.perform`). A run is what a list of operations does to a world, where every operation
may succeed, fail or overflow (`World.run`).
-/

namespace ObjectLedger

deriving instance DecidableEq for Session, Commit

/-- What may be asked of the service. A session is named by its place among those opened. -/
inductive Operation where
  | createBucket (draft : BucketDraft)
  | openKey (request : OpenRequest)
  | allocateBlock (place : Nat)
  | commitKey (place : Nat) (reported : List Block) (size : UInt64) (options : CommitOptions)
  | deleteKey (volume bucket key : String)

/-- What the service answers. -/
inductive Outcome where
  | bucketCreated (bucket : BucketRecord)
  | keyOpened (session : Session)
  | blockAllocated (block : Block)
  | keyCommitted (commit : Commit)
  | keyDeleted (key : KeyRecord)
  | failed (fault : Fault)
  /-- The session named is not open. -/
  | notOpen
deriving DecidableEq

/-- The bucket that was created, if one was. -/
def Outcome.buckets : Outcome → List BucketRecord
  | .bucketCreated bucket => [bucket]
  | _ => []

/-- An exact result did not fit its word. -/
def Outcome.overflows : Outcome → Bool
  | .failed (.overflow _) => true
  | _ => false

/-- The service with the sessions ever opened, an ended one being nothing. -/
structure World where
  service : Service
  sessions : List (Option Session)

namespace World

/-- A service over an empty store, without sessions. -/
def start (allocator : Allocator) (clock : Clock) (outages : Outages) : World where
  service := .start allocator clock outages
  sessions := []

/-- The open session of a place. -/
def sessionAt (world : World) (place : Nat) : Option Session := world.sessions[place]?.join

/-- What an operation answers, and the world after it. -/
def perform (settings : Settings) (world : World) : Operation → Outcome × World
  | .createBucket draft =>
    match (Action.createBucket draft).exec world.service with
    | (.ok bucket, service) => (.bucketCreated bucket, { world with service })
    | (.error fault, service) => (.failed fault, { world with service })
  | .openKey request =>
    match (Action.openKey settings request).exec world.service with
    | (.ok session, service) => (.keyOpened session, ⟨service, world.sessions ++ [some session]⟩)
    | (.error fault, service) => (.failed fault, { world with service })
  | .allocateBlock place =>
    match world.sessionAt place with
    | none => (.notOpen, world)
    | some session =>
      match (Action.allocateBlock settings session).exec world.service with
      | (.ok (block, session), service) =>
        (.blockAllocated block, ⟨service, world.sessions.set place (some session)⟩)
      | (.error fault, service) => (.failed fault, { world with service })
  | .commitKey place reported size options =>
    match world.sessionAt place with
    | none => (.notOpen, world)
    | some session =>
      match (Action.commitKey settings session reported size options).exec world.service with
      | (.ok commit, service) =>
        (.keyCommitted commit, ⟨service, world.sessions.set place none⟩)
      | (.error fault, service) => (.failed fault, ⟨service, world.sessions.set place none⟩)
  | .deleteKey volume bucket key =>
    match (Action.deleteKeyOf settings volume bucket key).exec world.service with
    | (.ok record, service) => (.keyDeleted record, { world with service })
    | (.error fault, service) => (.failed fault, { world with service })

/-- The world after an operation. -/
def after (settings : Settings) (world : World) (operation : Operation) : World :=
  (world.perform settings operation).2

/-- The world after some operations. -/
def run (settings : Settings) (world : World) (operations : List Operation) : World :=
  operations.foldl (after settings) world

/-- What some operations answer. -/
def outcomes (settings : Settings) (world : World) : List Operation → List Outcome
  | [] => []
  | operation :: rest =>
    (world.perform settings operation).1 :: (world.after settings operation).outcomes settings rest

/-- Something holds after each of some operations. -/
def Throughout (settings : Settings) (holds : World → Prop) (world : World) :
    List Operation → Prop
  | [] => True
  | operation :: rest =>
    holds (world.after settings operation) ∧
      (world.after settings operation).Throughout settings holds rest

/-- The counter of generations has not run out. -/
def Counting (world : World) : Prop := world.service.nextGeneration ≠ 0

instance : DecidablePred Counting := fun world =>
  inferInstanceAs (Decidable (world.service.nextGeneration ≠ 0))

instance decidableThroughout (settings : Settings) (holds : World → Prop) [DecidablePred holds] :
    (world : World) → (operations : List Operation) →
      Decidable (world.Throughout settings holds operations)
  | _, [] => .isTrue trivial
  | world, operation :: rest =>
    have := decidableThroughout settings holds (world.after settings operation) rest
    inferInstanceAs (Decidable (_ ∧ _))

/-- The number of identities that some operations take from the allocator. An operation takes
fewer than there are, so the counter tells how many. -/
def issued (settings : Settings) (world : World) : List Operation → Nat
  | [] => 0
  | operation :: rest =>
    let next := world.after settings operation
    (next.service.allocator.nextNumber - world.service.allocator.nextNumber).toNat +
      next.issued settings rest

/-- The world after the first operations of a run. -/
def moment (settings : Settings) (world : World) (operations : List Operation) (count : Nat) :
    World :=
  world.run settings (operations.take count)

/-- A service with one container, a clock that stands still and no outages. -/
def calm : World := start ⟨1, 0, 1, fun _ => ⟨.replicate 16 0⟩, 0, [], []⟩ ⟨fun _ => 0, 0⟩ .never

/-- Two writers find no key, and the second one commits after the key of the first was deleted. -/
def twoWriters : List Operation :=
  [.createBucket { volume := some "v", name := some "b", medium := some .disk },
    .openKey { volume := "v", bucket := "b", key := "k" },
    .openKey { volume := "v", bucket := "b", key := "k" },
    .commitKey 0 [] 0 {}, .deleteKey "v" "b" "k", .commitKey 1 [] 0 {}]

/-- The first of them commits a block of ten bytes. -/
def storeBlock : Operation := .commitKey 0 [{ Block.bare ⟨1, 1⟩ with length := 10 }] 10 {}

/-- Without outages, allocations give the blocks asked for. -/
theorem faithful_never : Outages.never.Faithful := fun call same => by cases same

variable {settings : Settings} {world : World} {operations : List Operation}

theorem counting_start (allocator : Allocator) (clock : Clock) (outages : Outages) :
    (start allocator clock outages).Counting :=
  show (1 : UInt64) ≠ 0 by decide

/-- The next moment of a run is the one after its next operation. -/
theorem moment_succ_of_getElem? {count : Nat} {operation : Operation}
    (next : operations[count]? = some operation) :
    world.moment settings operations (count + 1) =
      (world.moment settings operations count).after settings operation := by
  unfold moment run
  rw [List.take_add_one, next, Option.toList_some, List.foldl_append]
  rfl

/-- A run is over after its last operation. -/
theorem moment_succ_of_none {count : Nat} (ended : operations[count]? = none) :
    world.moment settings operations (count + 1) = world.moment settings operations count := by
  unfold moment
  rw [List.take_add_one, ended, Option.toList_none, List.append_nil]

/-- What holds at a moment of a run, and is kept by the operations of the run, holds at every later
moment. -/
theorem moment_induction (holds : World → Prop) {earlier later : Nat} (order : earlier ≤ later)
    (first : holds (world.moment settings operations earlier))
    (next : ∀ count operation, earlier ≤ count → operations[count]? = some operation →
      holds (world.moment settings operations count) →
        holds (world.moment settings operations (count + 1))) :
    holds (world.moment settings operations later) := by
  induction order with
  | refl => exact first
  | @step count past ih =>
      cases there : operations[count]? with
      | none => exact moment_succ_of_none there ▸ ih
      | some operation => exact next count operation past there ih

/-- The last moment of a run is its end. -/
theorem moment_length : world.moment settings operations operations.length =
    world.run settings operations := by
  unfold moment
  rw [List.take_length]

/-- The outcomes of a run go on with those of what follows. -/
theorem outcomes_append (front back : List Operation) :
    world.outcomes settings (front ++ back) =
      world.outcomes settings front ++ (world.run settings front).outcomes settings back := by
  induction front generalizing world with
  | nil => rfl
  | cons operation rest ih => exact congrArg (_ :: ·) ih

/-- The outcomes up to the next moment end with that of the next operation. -/
theorem outcomes_take_succ {count : Nat} {operation : Operation}
    (next : operations[count]? = some operation) :
    world.outcomes settings (operations.take (count + 1)) =
      world.outcomes settings (operations.take count) ++
        [((world.moment settings operations count).perform settings operation).1] := by
  rw [List.take_add_one, next, Option.toList_some, outcomes_append]
  rfl

/-- What an operation of a run answers is one of the run's outcomes. -/
theorem mem_outcomes {count : Nat} {operation : Operation}
    (next : operations[count]? = some operation) :
    ((world.moment settings operations count).perform settings operation).1 ∈
      world.outcomes settings operations := by
  have parted : world.outcomes settings
      (operations.take (count + 1) ++ operations.drop (count + 1)) = _ := outcomes_append _ _
  rw [List.take_append_drop, outcomes_take_succ next] at parted
  rw [parted]
  exact List.mem_append_left _ (List.mem_append_right _ (List.mem_singleton.2 rfl))

/-- What holds throughout a run may be weakened. -/
theorem Throughout.mono {holds other : World → Prop}
    (throughout : world.Throughout settings holds operations)
    (implies : ∀ now, holds now → other now) : world.Throughout settings other operations := by
  induction operations generalizing world with
  | nil => exact trivial
  | cons operation rest ih => exact ⟨implies _ throughout.1, ih throughout.2⟩

/-- What holds throughout a run holds at each of its moments. -/
theorem Throughout.moment {holds : World → Prop}
    (throughout : world.Throughout settings holds operations) (first : holds world)
    (count : Nat) : holds (world.moment settings operations count) := by
  induction operations generalizing world count with
  | nil =>
      unfold World.moment
      rw [List.take_nil]
      exact first
  | cons operation rest ih =>
      cases count with
      | zero => exact first
      | succ count => exact ih throughout.2 throughout.1 count

end World

end ObjectLedger
