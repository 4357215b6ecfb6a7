import ObjectLedger.Proofs.Service.Blocks

/-! # What repairs hand back

A repair commits a report without matching it with the allocated blocks. It hands back the
allocated blocks that the report does not name and the blocks of the record it replaces, or, if
it is rejected, every block that the report names and every allocated one. Neither list is matched
with what is kept (`World.handedBack_of_unchecked`): a replaced block that the report names again
is handed back although the written key refers to it (`World.repair_hands_back_own`), and a
rejected report hands back the blocks of other keys (`World.rejection_hands_back_other`).
-/

namespace ObjectLedger

namespace Session

variable {session : Session} {records : Records}

/-- The blocks allocated to a session that a report does not name. -/
def unnamed (session : Session) (reported : List Block) : List Block :=
  session.allocated.filter fun block => block.id ∉ reported.map (·.id)

/-- The identities of other stored keys and of the groups that a session keeps. -/
def spared (session : Session) (records : Records) : List BlockId :=
  (records.dropKey session.path).blockIds ++ (session.older.flatMap (·.blocks)).map (·.id)

/-- The identities in a store are those that a session spares and those that it replaces. -/
theorem count_spared (found : session.FoundIn records) (id : BlockId) :
    (session.spared records).count id + (session.replaced.map (·.id)).count id =
      records.blockIds.count id := by
  have stood := count_found found id
  have within := records.count_dropKey session.path id
  unfold spared
  rw [List.count_append]
  omega

/-- After the key of a repair was written, its report and what the session spares are referred
to. -/
theorem Commits.mem_written_iff {reported : List Block} {options : CommitOptions}
    (unchecked : options.unchecked = true) {written : KeyRecord} {committed leftOver : List Block}
    (commits : session.Commits reported options written committed leftOver)
    (found : session.FoundIn records) {frame : List UInt8} (persisted : written.persist = .ok frame)
    (id : BlockId) :
    id ∈ (records.putKey written frame).blockIds ↔
      id ∈ reported.map (·.id) ∨ id ∈ session.spared records := by
  have stored := commits.count_stored found persisted id
  have parted := count_spared found id
  rw [(commits.verbatim unchecked).1] at stored
  rw [← List.count_pos_iff, ← List.count_pos_iff, ← List.count_pos_iff]
  omega

/-- What a repair leaves over is the part of the allocated blocks that its report does not name. -/
theorem Commits.leftOver_eq {reported : List Block} {options : CommitOptions}
    (unchecked : options.unchecked = true) {written : KeyRecord} {committed leftOver : List Block}
    (commits : session.Commits reported options written committed leftOver) :
    leftOver = session.unnamed reported :=
  (commits.verbatim unchecked).2

end Session

namespace World

/-- The identities that are handed back between two worlds. -/
def handedBack (before after : World) : List BlockId :=
  after.service.allocator.deleted.drop before.service.allocator.deleted.length

variable {settings : Settings} {before after : World}

/-- What is handed back is what the allocator was told to delete. -/
theorem handedBack_of_delete {blocks : List Block}
    (allocator : after.service.allocator = before.service.allocator.delete blocks) :
    before.handedBack after = blocks.map (·.id) := by
  unfold handedBack
  rw [allocator]
  exact List.drop_left

/-- Nothing is handed back where the allocator stays the same. -/
theorem handedBack_of_same (allocator : after.service.allocator = before.service.allocator) :
    before.handedBack after = [] := by
  unfold handedBack
  rw [allocator, List.drop_length]

namespace BlockSafe

variable {place : Nat} {session : Session} {reported : List Block} {id : BlockId}

/-- The blocks that a repair leaves over are named neither by its report nor by a stored key. -/
theorem of_unnamed (safe : before.BlockSafe) (found : before.sessionAt place = some session)
    (member : id ∈ (session.unnamed reported).map (·.id)) :
    id ∉ reported.map (·.id) ∧ id ∉ before.service.records.blockIds := by
  obtain ⟨block, inside, rfl⟩ := List.mem_map.1 member
  obtain ⟨allocated, absent⟩ := List.mem_filter.1 inside
  exact ⟨of_decide_eq_true absent, safe.apart place session found block allocated⟩

/-- A block that a repair leaves over or replaces is referred to elsewhere only by its report. -/
theorem of_released (safe : before.BlockSafe) (found : before.sessionAt place = some session)
    (stands : session.FoundIn before.service.records)
    (member : id ∈ (session.unnamed reported ++ session.replaced).map (·.id)) :
    id ∈ reported.map (·.id) ∨ id ∈ session.spared before.service.records ↔
      id ∈ reported.map (·.id) ∧ id ∈ before.service.records.blockIds := by
  have parted := session.count_spared stands id
  have once := List.nodup_iff_count.1 safe.distinct id
  rw [List.map_append, List.mem_append] at member
  rcases member with left | replaced
  · obtain ⟨unreported, unstored⟩ := safe.of_unnamed found left
    rw [List.count_eq_zero.2 unstored] at parted
    have unspared : id ∉ session.spared before.service.records :=
      List.count_eq_zero.1 (by omega)
    simp only [unreported, unspared, false_or, false_and]
  · have positive := List.count_pos_iff.2 replaced
    have unspared : id ∉ session.spared before.service.records :=
      List.count_eq_zero.1 (by omega)
    have stored : id ∈ before.service.records.blockIds := List.count_pos_iff.1 (by omega)
    simp only [unspared, stored, or_false, and_true]

end BlockSafe

section

variable {session : Session} {reported : List Block} {options : CommitOptions} {later : Service}

/-- What a repair that succeeds hands back, and what is referred to afterwards. -/
theorem handedBack_of_succeeds (unchecked : options.unchecked = true) {commit : Commit}
    (effect : Action.CommitEffect settings before.service session reported options (.ok commit)
      later) (sessions : List (Option Session)) :
    before.handedBack ⟨later, sessions⟩ =
        (session.unnamed reported ++ session.replaced).map (·.id) ∧
      ∀ id, id ∈ later.records.blockIds ↔
        id ∈ reported.map (·.id) ∨ id ∈ session.spared before.service.records := by
  cases effect with
  | settled commits writes charged moves released leaves =>
      rcases released with ⟨-, rfl⟩ | ⟨⟨fault, failed⟩, -⟩
      · refine ⟨?_, fun id => ?_⟩
        · rw [handedBack_of_delete leaves.allocator, commits.leftOver_eq unchecked]
        · rw [leaves.records, Records.blockIds_of_keys moves.keys_eq]
          exact commits.mem_written_iff unchecked writes.found writes.persisted id
      · cases failed

/-- What a repair hands back that is rejected, none of the calls that it made to undo it being
refused. -/
theorem handedBack_of_rejected (allowed : settings.allowUnchecked = true)
    (unchecked : options.unchecked = true) {cause : StoreError}
    (effect : Action.CommitEffect settings before.service session reported options
      (.error (.error cause)) later)
    (deletes : ¬ before.service.RefusedNext later .deleteBlocks)
    (undoes : ¬ before.service.UndoRefused later session)
    (sessions : List (Option Session)) :
    before.handedBack ⟨later, sessions⟩ = (reported ++ session.unnamed reported).map (·.id) ∧
      later.records.blockIds = before.service.records.blockIds := by
  cases effect with
  | untouched reason leaves =>
      rcases reason cause rfl with ⟨-, forbidden⟩ | refused
      · cases forbidden.symm.trans allowed
      · exact (deletes refused).elim
  | rejected commits leaves =>
      refine ⟨?_, by rw [leaves.records]⟩
      rw [handedBack_of_delete leaves.allocator, commits.leftOver_eq unchecked, List.map_append,
        (commits.verbatim unchecked).1, List.map_append]
  | kept commits writes reason released leaves => exact (undoes (reason cause rfl)).elim
  | settled commits writes charged moves released leaves =>
      rcases released with ⟨⟨outcome, -, succeeded⟩, -⟩ | ⟨-, -, refused⟩
      · cases succeeded
      · exact (deletes refused).elim

/-- However far a repair comes, what it hands back of blocks that were referred to once. -/
theorem BlockSafe.of_handedBack (safe : before.BlockSafe) {place : Nat}
    (found : before.sessionAt place = some session) (unchecked : options.unchecked = true)
    {result : Except Fault Commit}
    (effect : Action.CommitEffect settings before.service session reported options result later)
    (sessions : List (Option Session)) {id : BlockId}
    (member : id ∈ before.handedBack ⟨later, sessions⟩) :
    id ∈ later.records.blockIds ↔
      id ∈ reported.map (·.id) ∧ id ∈ before.service.records.blockIds := by
  cases effect with
  | untouched reason leaves =>
      rw [handedBack_of_same leaves.allocator] at member
      cases member
  | rejected commits leaves =>
      rw [handedBack_of_delete leaves.allocator, commits.leftOver_eq unchecked, List.map_append,
        (commits.verbatim unchecked).1, List.mem_append] at member
      rw [leaves.records]
      rcases member with named | left
      · exact (and_iff_right named).symm
      · obtain ⟨unreported, unstored⟩ := safe.of_unnamed found left
        exact iff_of_false unstored fun both => unreported both.1
  | @kept _ _ _ committed leftOver _ _ commits writes reason released leaves =>
      have left := commits.leftOver_eq unchecked
      rw [leaves.records, commits.mem_written_iff unchecked writes.found writes.persisted]
      refine safe.of_released found writes.found ?_
      rcases released with rfl | rfl
      · rw [handedBack_of_same leaves.allocator] at member
        cases member
      · rw [handedBack_of_delete leaves.allocator, left] at member
        rw [List.map_append]
        exact List.mem_append_left _ member
  | settled commits writes charged moves released leaves =>
      rw [leaves.records, Records.blockIds_of_keys moves.keys_eq,
        commits.mem_written_iff unchecked writes.found writes.persisted]
      refine safe.of_released found writes.found ?_
      rcases released with ⟨-, rfl⟩ | ⟨-, rfl, -⟩
      · rwa [handedBack_of_delete leaves.allocator, commits.leftOver_eq unchecked] at member
      · rw [handedBack_of_same leaves.allocator] at member
        cases member

end

/-- A repair that succeeds hands back the allocated blocks that its report does not name and the
blocks that it replaces, while its report and what its session spares stay referred to. One that
is rejected hands back all that its report names or its session was allocated. Where every
stored block was referred to once, the blocks that are handed back and still referred to are those
that the report names and a stored key referred to before. -/
theorem handedBack_of_unchecked (settings : Settings) (allowed : settings.allowUnchecked = true)
    (allocator : Allocator) (clock : Clock) {outages : Outages} (faithful : outages.Faithful)
    (operations : List Operation)
    (counting : (start allocator clock outages).Throughout settings Counting operations)
    {before : World} (reached : before = (start allocator clock outages).run settings operations)
    {place : Nat} {session : Session} (found : before.sessionAt place = some session)
    (reported : List Block) (size : UInt64) {options : CommitOptions}
    (unchecked : options.unchecked = true) {outcome : Outcome} {after : World}
    (performed : before.perform settings (.commitKey place reported size options) =
      (outcome, after)) :
    (∀ commit, outcome = .keyCommitted commit →
      before.handedBack after = (session.unnamed reported ++ session.replaced).map (·.id) ∧
      ∀ id, id ∈ after.service.records.blockIds ↔
        id ∈ reported.map (·.id) ∨ id ∈ session.spared before.service.records) ∧
    (∀ cause, outcome = .failed (.error cause) →
      ¬ before.service.RefusedNext after.service .deleteBlocks →
      ¬ before.service.UndoRefused after.service session →
      before.handedBack after = (reported ++ session.unnamed reported).map (·.id) ∧
      after.service.records.blockIds = before.service.records.blockIds) ∧
    (before.BlockSafe → ∀ id ∈ before.handedBack after,
      id ∈ after.service.records.blockIds ↔
        id ∈ reported.map (·.id) ∧ id ∈ before.service.records.blockIds) := by
  have sound : before.Sound := (sound_of_reached faithful counting reached).1
  have step := sound.step settings (.commitKey place reported size options)
  unfold World.after at step
  rw [performed] at step
  cases step with
  | refused early => exact (early _ _ _ _ rfl).elim
  | absent =>
      refine ⟨fun commit same => ?_, fun cause same => ?_, fun safe id member => ?_⟩
      · cases same
      · cases same
      · rw [handedBack_of_same rfl] at member
        cases member
  | @committed _ _ _ _ _ result later there effect =>
      cases there.symm.trans found
      refine ⟨fun commit same => ?_, fun cause same deletes undoes => ?_, fun safe id member =>
        safe.of_handedBack found unchecked effect _ member⟩
      · cases result with
        | ok done => exact handedBack_of_succeeds unchecked effect _
        | error fault => cases same
      · cases result with
        | ok done => cases same
        | error fault =>
            cases same
            exact handedBack_of_rejected allowed unchecked effect deletes undoes _

/-- A service that takes reports as they are where a commit asks for it. -/
def lenient : Settings := { allowUnchecked := true }

/-- A report that names the block 1. -/
def firstBlock : List Block := [{ Block.bare ⟨1, 1⟩ with length := 5 }]

/-- The key k is committed with the block 1, and sessions are open for it and for the key j, where
the one at place 3 comes too late. -/
def repairing : List Operation :=
  let request : OpenRequest := { volume := "v", bucket := "b", key := "k" }
  [.createBucket { volume := some "v", name := some "b", medium := some .disk },
    .openKey request, .commitKey 0 firstBlock 5 {}, .openKey request,
    .openKey { request with key := "j" }, .openKey { request with key := "j" },
    .commitKey 2 [] 0 {}]

/-- The repair that ends the session of a place with the block 1. -/
def repair (place : Nat) : Operation := .commitKey place firstBlock 5 { unchecked := true }

set_option maxRecDepth 20000 in
/-- A repair of a key that names its own block hands that block back. -/
theorem handedBack_of_repairing :
    calm.Throughout lenient Counting repairing ∧ (calm.run lenient repairing).BlockSafe ∧
    ∃ session, (calm.run lenient repairing).sessionAt 1 = some session ∧
      ∀ id ∈ (session.unnamed firstBlock ++ session.replaced).map (·.id),
        id ∈ ((calm.run lenient repairing).after lenient (repair 1)).service.records.blockIds ↔
          id ∈ firstBlock.map (·.id) ∧
            id ∈ (calm.run lenient repairing).service.records.blockIds := by
  have matched : ∀ operation ∈ repairing, operation.Matched := by
    simp [repairing, Operation.Matched]
  have runs : calm.Throughout lenient Counting repairing ∧
      calm.issued lenient repairing < UInt64.size ∧
      ((calm.run lenient repairing).sessionAt 1).isSome ∧
      ((calm.run lenient repairing).perform lenient (repair 1)).1.commit?.isSome := by
    decide +kernel
  obtain ⟨counting, few, there, done⟩ := runs
  have created : Allocator.new 1 (fun _ => ⟨.replicate 16 0⟩) = .ok calm.service.allocator := rfl
  have sound : calm.Sound := sound_start _ calm.service.clock faithful_never
  have ledger : calm.Ledger 0 := ledger_start created calm.service.clock .never
  have small : 0 + calm.issued lenient repairing < UInt64.size := by rwa [Nat.zero_add]
  have safe := (ledger.throughout sound repairing counting matched small).moment
    (ledger.blockSafe sound) repairing.length
  rw [moment_length] at safe
  obtain ⟨session, found⟩ := Option.isSome_iff_exists.1 there
  obtain ⟨commit, committed⟩ := Option.isSome_iff_exists.1 done
  have same : calm = start calm.service.allocator calm.service.clock .never := rfl
  have reached := congrArg (run lenient · repairing) same
  -- The world is not to be computed again below.
  generalize calm.run lenient repairing = world at *
  obtain ⟨succeeds, -, once⟩ := handedBack_of_unchecked lenient rfl calm.service.allocator
    calm.service.clock faithful_never repairing counting reached found firstBlock 5 rfl
    (Prod.eta (world.perform lenient (repair 1))).symm
  refine ⟨counting, safe, session, found, fun id member => once safe id ?_⟩
  rwa [(succeeds commit (Outcome.commit?_eq_some_iff.1 committed)).1]

set_option maxRecDepth 20000 in
/-- A block that a key refers to, before and after its repair, is handed back by it. -/
theorem repair_hands_back_own :
    ((calm.run lenient repairing).perform lenient (repair 1)).1.commit?.isSome ∧
    ⟨1, 1⟩ ∈ (calm.run lenient repairing).handedBack
      ((calm.run lenient repairing).after lenient (repair 1)) ∧
    ⟨1, 1⟩ ∈ ((calm.run lenient repairing).after lenient (repair 1)).service.records.blockIds ∧
    ((calm.run lenient repairing).after lenient (repair 1)).service.allocator.isLive ⟨1, 1⟩ =
      false := by
  decide +kernel

set_option maxRecDepth 20000 in
/-- A block of one key is handed back by a repair of another key that comes too late. -/
theorem rejection_hands_back_other :
    ((calm.run lenient repairing).perform lenient (repair 3)).1 =
      .failed (.error (.concurrent "/v/b/j" none (some 4))) ∧
    ⟨1, 1⟩ ∈ (calm.run lenient repairing).handedBack
      ((calm.run lenient repairing).after lenient (repair 3)) ∧
    ⟨1, 1⟩ ∈ ((calm.run lenient repairing).after lenient (repair 3)).service.records.blockIds := by
  decide +kernel

end World

end ObjectLedger
