import ObjectLedger.Proofs.Service.Step
import ObjectLedger.Proofs.Store.References

/-! # Blocks are referred to once

Every identity that was given out is at most once among the stored keys, the versions of open
sessions and the deletion log, and it is live unless it was deleted (`World.Ledger`). A commit
replaces the blocks of the record that its session was opened on, which are those that stand in
the store since the condition of its write held. The blocks of stored keys are therefore live,
no two keys share one, and no block is deleted twice (`World.blockSafe_of_counting`).
-/

namespace ObjectLedger

/-- The groups that a session keeps and the blocks it replaces are those of the record that is
found under its path. -/
theorem Session.count_found {session : Session} {records : Records}
    (found : session.FoundIn records) (id : BlockId) :
    records.countAt session.path id =
      ((session.older.flatMap (·.blocks)).map (·.id)).count id +
        (session.replaced.map (·.id)).count id := by
  unfold Session.FoundIn at found
  unfold Session.older Session.replaced
  cases previous : session.previous with
  | none =>
      rw [previous] at found
      rw [Records.countAt_of_absent found]
      rfl
  | some old =>
      rw [previous] at found
      obtain ⟨stored, there, holds⟩ := found
      rw [Records.countAt_of_found there, holds.blockIds]
      cases session.versioning with
      | true => exact (Nat.add_zero _).symm
      | false => exact (Nat.zero_add _).symm

/-- The blocks of a key that a commit writes are those kept and those committed. -/
theorem Session.Commits.count_written {session : Session} {reported : List Block}
    {options : CommitOptions} {written : KeyRecord} {committed leftOver : List Block}
    (commits : session.Commits reported options written committed leftOver) (id : BlockId) :
    (written.allBlocks.map (·.id)).count id =
      ((session.older.flatMap (·.blocks)).map (·.id)).count id +
        (committed.map (·.id)).count id := by
  obtain ⟨group, history, rfl⟩ := commits.history
  unfold KeyRecord.allBlocks
  rw [history, List.flatMap_append, List.map_append, List.count_append, List.flatMap_singleton]

/-- Writing the key of a commit over the record that its session found puts the committed blocks
in the place of the replaced ones. -/
theorem Session.Commits.count_stored {session : Session} {reported : List Block}
    {options : CommitOptions} {written : KeyRecord} {committed leftOver : List Block}
    (commits : session.Commits reported options written committed leftOver) {records : Records}
    (found : session.FoundIn records) {frame : List UInt8} (persisted : written.persist = .ok frame)
    (id : BlockId) :
    (records.putKey written frame).blockIds.count id + (session.replaced.map (·.id)).count id =
      records.blockIds.count id + (committed.map (·.id)).count id := by
  have stored := records.count_putKey commits.wellFormed persisted id
  rw [commits.path, session.count_found found id, commits.count_written id] at stored
  omega

/-- Operations whose commits match their report with the allocated blocks. -/
def Operation.Matched : Operation → Prop
  | .commitKey _ _ _ options => options.unchecked = false
  | _ => True

namespace World

/-- The identities allocated to a session, if it is open. -/
def tail : Option Session → List BlockId
  | some session => session.allocated.map (·.id)
  | none => []

/-- The identities in the versions that open sessions write. -/
def openIds (world : World) : List BlockId := world.sessions.flatMap tail

/-- How often an identity is in use: by stored keys and by open sessions. -/
def uses (world : World) (id : BlockId) : Nat :=
  world.service.records.blockIds.count id + world.openIds.count id

theorem uses_mk (service : Service) (sessions : List (Option Session)) (id : BlockId) :
    uses ⟨service, sessions⟩ id =
      service.records.blockIds.count id + (sessions.flatMap tail).count id := rfl

/-- Every identity is used once or deleted once at most, and live while it is used. -/
structure Ledger (world : World) (issued : Nat) : Prop where
  counter : world.service.allocator.nextNumber = UInt64.ofNat (issued + 1)
  once : ∀ id, world.uses id + world.service.allocator.deleted.count id ≤ 1
  live : ∀ id, 0 < world.uses id → id ∈ world.service.allocator.live
  known : ∀ id, 0 < world.uses id + world.service.allocator.deleted.count id →
    id.number.toNat ≤ issued

/-- The blocks of stored keys are live, each is referred to once and by no open session, and no
block is deleted twice. -/
structure BlockSafe (world : World) : Prop where
  /-- The frames of stored keys are read, so their blocks are all known. -/
  readable : ∀ path stored, world.service.records.keys.get? path = some stored →
    ∃ key, KeyRecord.ofPersisted stored.bytes 0 = .ok key
  live : ∀ id ∈ world.service.records.blockIds, world.service.allocator.isLive id
  distinct : world.service.records.blockIds.Nodup
  apart : ∀ place session, world.sessionAt place = some session →
    ∀ block ∈ session.allocated, block.id ∉ world.service.records.blockIds
  deletedOnce : world.service.allocator.deleted.Nodup

variable {settings : Settings} {before after : World} {operation : Operation} {outcome : Outcome}
  {issued : Nat}

/-! ## Sessions -/

/-- Replacing one session exchanges its tail for another one. -/
theorem count_flatMap_set {sessions : List (Option Session)} {place : Nat}
    {session : Session} (found : sessions[place]?.join = some session) (next : Option Session)
    (id : BlockId) :
    ((sessions.set place next).flatMap tail).count id + (tail (some session)).count id =
      (sessions.flatMap tail).count id + (tail next).count id := by
  induction sessions generalizing place with
  | nil => cases found
  | cons first rest ih =>
      cases place with
      | zero =>
          cases (show first = some session from found)
          rw [List.set_cons_zero, List.flatMap_cons, List.flatMap_cons, List.count_append,
            List.count_append]
          omega
      | succ place =>
          have later := ih (show rest[place]?.join = some session from found)
          rw [List.set_cons_succ, List.flatMap_cons, List.flatMap_cons, List.count_append,
            List.count_append]
          omega

/-- Ending a session gives its blocks up. -/
theorem count_openIds_end {place : Nat} {session : Session}
    (found : before.sessionAt place = some session) (service : Service) (id : BlockId) :
    (openIds ⟨service, before.sessions.set place none⟩).count id +
      (session.allocated.map (·.id)).count id = before.openIds.count id :=
  count_flatMap_set found none id

/-- A block that is allocated to an open session is held by one. -/
theorem mem_openIds {place : Nat} {session : Session}
    (found : before.sessionAt place = some session) {id : BlockId}
    (inside : id ∈ session.allocated.map (·.id)) : id ∈ before.openIds := by
  have ended := count_openIds_end found before.service id
  have positive := List.count_pos_iff.2 inside
  exact List.count_pos_iff.1 (by omega)

/-! ## How identities flow -/

/-- What an operation gives out, and what it hands back of what is no longer used. Nothing gets
lost if the operation is whole. -/
inductive Flow (before after : World) (whole : Prop) : Prop
  | given {count : Nat} {replication : Replication} {size : UInt64} {blocks : List Block}
      (few : count < UInt64.size)
      (allocate : before.service.allocator.allocate replication count size =
        (.ok blocks, after.service.allocator))
      (grown : ∀ id, after.uses id = before.uses id + (blocks.map (·.id)).count id)
  | returned (blocks : List Block)
      (allocator : after.service.allocator = before.service.allocator.delete blocks)
      (conserved : ∀ id, after.uses id + (blocks.map (·.id)).count id ≤ before.uses id)
      (complete : whole → ∀ id,
        before.uses id ≤ after.uses id + (blocks.map (·.id)).count id)
  /-- Numbers are taken, and what they were taken for is not used. -/
  | wasted {count : Nat} (few : count < UInt64.size)
      (advances : before.service.allocator.Advances after.service.allocator count)
      (same : ∀ id, after.uses id = before.uses id)
      (live : whole → after.service.allocator.live = before.service.allocator.live)

variable {whole : Prop}

/-- All that is no longer used is handed back. -/
theorem Flow.exactly (blocks : List Block)
    (allocator : after.service.allocator = before.service.allocator.delete blocks)
    (conserved : ∀ id, after.uses id + (blocks.map (·.id)).count id = before.uses id) :
    Flow before after whole :=
  .returned blocks allocator (fun id => Nat.le_of_eq (conserved id))
    fun _ id => Nat.le_of_eq (conserved id).symm

/-- Nothing is handed back, although something may be used no longer. -/
theorem Flow.lost (allocator : after.service.allocator = before.service.allocator)
    (fewer : ∀ id, after.uses id ≤ before.uses id) (broken : ¬ whole) :
    Flow before after whole := by
  have same : after.service.allocator = before.service.allocator.delete [] := by
    rw [allocator, Allocator.delete_nil]
  exact .returned [] same fewer fun holds => (broken holds).elim

/-- Nothing is handed back, and nothing is used no longer. -/
theorem Flow.still (allocator : after.service.allocator = before.service.allocator)
    (same : ∀ id, after.uses id = before.uses id) : Flow before after whole := by
  refine .exactly [] ?_ same
  rw [allocator, Allocator.delete_nil]

/-- A commit uses no identity more often than before, those it hands back included. -/
theorem uses_committed {place : Nat} {session : Session} {written : KeyRecord}
    {options : CommitOptions} {reported committed leftOver : List Block} {frame : List UInt8}
    (service : Service) {later : Service} (found : before.sessionAt place = some session)
    (matched : options.unchecked = false)
    (commits : session.Commits reported options written committed leftOver)
    (writes : Action.KeyWritten before.service later session written frame)
    (keys : service.records.keys = (before.service.records.putKey written frame).keys)
    (id : BlockId) :
    uses ⟨service, before.sessions.set place none⟩ id +
      ((leftOver ++ session.replaced).map (·.id)).count id = before.uses id := by
  have stored := commits.count_stored writes.found writes.persisted id
  have ended := count_openIds_end found service id
  have accounted := commits.accounted matched id
  unfold uses
  rw [List.map_append, List.count_append]
  change service.records.blockIds.count id + _ + _ = _
  rw [Records.blockIds_of_keys keys]
  omega

/-- The blocks of a commit that was rejected are the ones of its session. -/
theorem uses_rejected {place : Nat} {session : Session} {written : KeyRecord}
    {options : CommitOptions} {reported committed leftOver : List Block} {service : Service}
    (found : before.sessionAt place = some session) (matched : options.unchecked = false)
    (commits : session.Commits reported options written committed leftOver)
    (records : service.records = before.service.records) (id : BlockId) :
    uses ⟨service, before.sessions.set place none⟩ id +
      ((committed ++ leftOver).map (·.id)).count id = before.uses id := by
  have ended := count_openIds_end found service id
  have accounted := commits.accounted matched id
  unfold uses
  rw [List.map_append, List.count_append]
  change service.records.blockIds.count id + _ + _ = _
  rw [records]
  omega

/-- Removing a key gives its blocks up. -/
theorem uses_dropped (sound : before.service.records.Sound) {path : String} {record : KeyRecord}
    (seen : before.service.records.keyAt path = some record) {service : Service}
    (keys : service.records.keys = (before.service.records.dropKey path).keys) (id : BlockId) :
    uses { before with service } id + (record.allBlocks.map (·.id)).count id =
      before.uses id := by
  have fewer := before.service.records.count_dropKey path id
  obtain ⟨stored, there, holds⟩ := sound.stored_of_keyAt seen
  rw [Records.countAt_of_found there, holds.blockIds] at fewer
  unfold uses
  change service.records.blockIds.count id + before.openIds.count id + _ = _
  rw [Records.blockIds_of_keys keys]
  omega

/-- A commit uses no new identities and hands back what it no longer uses. It loses some only if
a call is refused or an exact result overflows. -/
theorem flow_committed {place : Nat} {session : Session} {reported : List Block}
    {options : CommitOptions} {result : Except Fault Commit} {service : Service}
    (found : before.sessionAt place = some session) (matched : options.unchecked = false)
    (effect : Action.CommitEffect settings before.service session reported options result service) :
    Flow before ⟨service, before.sessions.set place none⟩
      (before.service.outages.Silent ∧ (Outcome.ofCommit result).overflows = false) := by
  cases effect with
  | @untouched fault _ reason leaves =>
      refine .lost leaves.allocator (fun id => ?_) fun whole => ?_
      · have ended := count_openIds_end found service id
        unfold uses
        change service.records.blockIds.count id + _ ≤ _
        rw [leaves.records]
        omega
      · cases fault with
        | overflow cause => cases whole.2
        | error cause =>
            rcases reason cause rfl with ⟨unchecked, -⟩ | refused
            · cases matched.symm.trans unchecked
            · exact whole.1 _ _ refused.1
  | rejected commits leaves =>
      exact .exactly _ leaves.allocator (uses_rejected found matched commits leaves.records)
  | @kept fault _ _ _ leftOver _ allocator commits writes reason released leaves =>
      have conserved := uses_committed service found matched commits writes
        (by rw [leaves.records])
      have broken : ¬ (before.service.outages.Silent ∧
          (Outcome.ofCommit (.error fault)).overflows = false) := by
        intro whole
        cases fault with
        | overflow cause => cases whole.2
        | error cause =>
            exact Service.undoes_of_sparesStore whole.1.sparesStore _ _ (reason cause rfl)
      rcases released with rfl | rfl
      · exact .lost leaves.allocator (fun id => by have := conserved id; omega) broken
      · refine .returned leftOver leaves.allocator (fun id => ?_) fun whole => (broken whole).elim
        have total := conserved id
        rw [List.map_append, List.count_append] at total
        omega
  | settled commits writes charged moves released leaves =>
      have conserved := uses_committed service found matched commits writes
        (by rw [leaves.records, moves.keys_eq])
      rcases released with ⟨-, rfl⟩ | ⟨-, rfl, refused⟩
      · exact .exactly _ leaves.allocator conserved
      · exact .lost leaves.allocator (fun id => by have := conserved id; omega)
          fun whole => whole.1 _ _ refused.1

/-- A deletion hands back the blocks of its key, unless a call is refused or an exact result
overflows. -/
theorem flow_deleted (sound : before.service.records.Sound) {volume bucket name : String}
    {result : Except Fault KeyRecord} {service : Service}
    (effect : Action.DeleteEffect before.service volume bucket name result service) :
    Flow before { before with service }
      (before.service.outages.Silent ∧ (Outcome.ofDeletion result).overflows = false) := by
  cases effect with
  | untouched leaves =>
      refine .still leaves.allocator fun id => ?_
      rw [uses_mk, leaves.records]
      rfl
  | @dropped fault _ home _ stands seen reason leaves =>
      have keys : service.records.keys = (before.service.records.dropKey
          (keyPath home.volume home.name name)).keys := by
        rw [leaves.records]
      have conserved := uses_dropped sound seen keys
      refine .lost leaves.allocator (fun id => by have := conserved id; omega) fun whole => ?_
      cases fault with
      | overflow cause => cases whole.2
      | error cause => exact (reason cause rfl).not_sparesStore whole.1.sparesStore
  | @settled _ _ home _ _ _ _ stands seen charge moves released leaves =>
      have keys : service.records.keys = (before.service.records.dropKey
          (keyPath home.volume home.name name)).keys := by
        rw [leaves.records, moves.keys_eq]
      have conserved := uses_dropped sound seen keys
      rcases released with ⟨-, rfl⟩ | ⟨-, rfl, refused⟩
      · exact .exactly _ leaves.allocator conserved
      · exact .lost leaves.allocator (fun id => by have := conserved id; omega)
          fun whole => whole.1 _ _ refused.1

/-- Every operation is whole if nothing is refused and no exact result overflows. -/
theorem Step.flow (step : Step settings before operation outcome after) (sound : before.Sound)
    (matched : operation.Matched) :
    Flow before after (before.service.outages.Silent ∧ outcome.overflows = false) := by
  cases step with
  | created wellFormed volume name persisted free leaves =>
      refine .still leaves.allocator fun id => ?_
      rw [uses_mk, leaves.records]
      rfl
  | opened stands few given ids leaves =>
      refine .given few (leaves.allocator.symm ▸ given) fun id => ?_
      rw [uses_mk, leaves.records, List.flatMap_append, List.count_append, List.flatMap_singleton,
        tail, ids, ← Nat.add_assoc]
      rfl
  | @allocated _ old session _ _ _ found prepared same previous versioning given ids leaves =>
      refine .given (by decide) (leaves.allocator.symm ▸ given) fun id => ?_
      have moved := count_flatMap_set found (some session) id
      rw [tail, tail, ids, List.count_append] at moved
      rw [uses_mk, leaves.records, List.map_singleton]
      unfold uses openIds
      omega
  | committed found effect => exact flow_committed found matched effect
  | deleted effect => exact flow_deleted sound.records effect
  | @refused _ fault _ _ _ early few advances leaves live =>
      refine .wasted few (leaves.allocator.symm ▸ advances) (fun id => ?_) fun whole => ?_
      · rw [uses_mk, leaves.records]
        rfl
      · cases fault with
        | overflow cause => cases whole.2
        | error cause => exact leaves.allocator.symm ▸ live cause rfl
  | absent => exact .still rfl fun _ => rfl

/-! ## Steps of the ledger -/

/-- Blocks that are handed back are no longer used. -/
theorem Ledger.released (ledger : before.Ledger issued) {blocks : List Block}
    (allocator : after.service.allocator = before.service.allocator.delete blocks)
    (conserved : ∀ id, after.uses id + (blocks.map (·.id)).count id ≤ before.uses id) :
    after.Ledger issued where
  counter := by
    rw [allocator]
    exact ledger.counter
  once id := by
    have once := ledger.once id
    have kept := conserved id
    rw [allocator]
    change _ + (before.service.allocator.deleted ++ blocks.map (·.id)).count id ≤ 1
    rw [List.count_append]
    omega
  live id used := by
    have once := ledger.once id
    have kept := conserved id
    have absent : id ∉ blocks.map (·.id) := fun member => by
      have := List.count_pos_iff.2 member
      omega
    rw [allocator]
    exact List.mem_filter.2 ⟨ledger.live id (by omega), decide_eq_true absent⟩
  known id positive := by
    have kept := conserved id
    rw [allocator] at positive
    change 0 < _ + (before.service.allocator.deleted ++ blocks.map (·.id)).count id at positive
    rw [List.count_append] at positive
    exact ledger.known id (by omega)

/-- The number of identities taken by an operation. -/
def taken (before after : World) : Nat :=
  (after.service.allocator.nextNumber - before.service.allocator.nextNumber).toNat

/-- The counter of blocks tells how many were taken, if it has not wrapped. -/
theorem taken_of_counter {count : Nat} (few : count < UInt64.size)
    (counter : after.service.allocator.nextNumber =
      before.service.allocator.nextNumber + UInt64.ofNat count) : taken before after = count := by
  unfold taken
  rw [counter, UInt64.add_comm, UInt64.add_sub_cancel, UInt64.toNat_ofNat_of_lt' few]

/-- Numbers are taken, and no identity is used more often than before. -/
theorem Ledger.advanced (ledger : before.Ledger issued) {count : Nat}
    (few : count < UInt64.size)
    (advances : before.service.allocator.Advances after.service.allocator count)
    (same : ∀ id, after.uses id = before.uses id) :
    after.Ledger (issued + taken before after) where
  counter := by
    obtain ⟨taken, bounded, counter⟩ := advances.counter
    rw [taken_of_counter (Nat.lt_of_le_of_lt bounded few) counter, counter, ledger.counter,
      ← UInt64.ofNat_add, Nat.add_right_comm]
  once id := by
    rw [same, advances.deleted]
    exact ledger.once id
  live id used := advances.live id (ledger.live id (same id ▸ used))
  known id positive := by
    rw [same, advances.deleted] at positive
    exact Nat.le_trans (ledger.known id positive) (Nat.le_add_right ..)

/-- Allocated blocks are new, and live from now on. -/
theorem Ledger.allocated (ledger : before.Ledger issued) {count : Nat}
    {replication : Replication} {size : UInt64} {blocks : List Block}
    (few : count < UInt64.size)
    (given : before.service.allocator.allocate replication count size =
      (.ok blocks, after.service.allocator))
    (small : issued + taken before after < UInt64.size)
    (grown : ∀ id, after.uses id = before.uses id + (blocks.map (·.id)).count id) :
    after.Ledger (issued + taken before after) := by
  obtain ⟨-, live, deleted, counter, -⟩ := Allocator.allocate_ok given
  rw [taken_of_counter few counter] at small ⊢
  obtain ⟨distinct, fresh⟩ := Allocator.fresh_of_allocate ledger.counter small given
  have unused : ∀ id ∈ blocks.map (·.id),
      before.uses id + before.service.allocator.deleted.count id = 0 := by
    intro id member
    refine Nat.eq_zero_of_not_pos fun positive => ?_
    exact Nat.lt_irrefl _ (Nat.lt_of_lt_of_le (fresh id member).1 (ledger.known id positive))
  constructor
  · rw [counter, ledger.counter, ← UInt64.ofNat_add, Nat.add_right_comm]
  · intro id
    rw [grown, deleted]
    have once := ledger.once id
    by_cases member : id ∈ blocks.map (·.id)
    · have before := unused id member
      have single := List.nodup_iff_count.1 distinct id
      omega
    · rw [List.count_eq_zero.2 member]
      omega
  · intro id used
    rw [grown] at used
    rw [live]
    by_cases member : id ∈ blocks.map (·.id)
    · exact List.mem_append_right _ member
    · rw [List.count_eq_zero.2 member] at used
      exact List.mem_append_left _ (ledger.live id used)
  · intro id positive
    rw [grown, deleted] at positive
    by_cases member : id ∈ blocks.map (·.id)
    · exact (fresh id member).2
    · rw [List.count_eq_zero.2 member] at positive
      exact Nat.le_trans (ledger.known id positive) (Nat.le_add_right ..)

/-- The ledger is kept however identities flow. -/
theorem Flow.ledger (flow : Flow before after whole) (ledger : before.Ledger issued)
    (small : issued + taken before after < UInt64.size) :
    after.Ledger (issued + taken before after) := by
  cases flow with
  | given few allocate grown => exact ledger.allocated few allocate small grown
  | wasted few advances same => exact ledger.advanced few advances same
  | returned blocks allocator conserved =>
      have next := ledger.released allocator conserved
      have none : taken before after = 0 := taken_of_counter (by decide)
        ((next.counter.trans ledger.counter.symm).trans (UInt64.add_zero _).symm)
      rw [none]
      exact next

/-- The ledger of a service over an empty store and a new allocator. -/
theorem ledger_start {containers : UInt64} {pipelines : Nat → PipelineId} {allocator : Allocator}
    (created : Allocator.new containers pipelines = .ok allocator) (clock : Clock)
    (outages : Outages) : (start allocator clock outages).Ledger 0 := by
  unfold Allocator.new at created
  split at created
  · cases created
  · cases created
    exact ⟨rfl, fun _ => Nat.zero_le 1, fun id used => absurd used (Nat.lt_irrefl 0),
      fun id used => absurd used (Nat.lt_irrefl 0)⟩

/-- A ledger over a sound store is what block safety asks for. -/
theorem Ledger.blockSafe {world : World} (ledger : world.Ledger issued) (sound : world.Sound) :
    world.BlockSafe where
  readable path stored found := by
    obtain ⟨key, holds⟩ := sound.records.keys path stored found
    exact ⟨key, holds.ofPersisted 0⟩
  live id member := by
    have used := List.count_pos_iff.2 member
    exact List.contains_iff_mem.2 (ledger.live id (Nat.lt_add_right _ used))
  distinct := List.nodup_iff_count.2 fun id => by
    have once := ledger.once id
    unfold uses at once
    omega
  apart place session found block inside member := by
    have once := ledger.once block.id
    have stored := List.count_pos_iff.2 member
    have opened := List.count_pos_iff.2
      (mem_openIds found (List.mem_map.2 ⟨block, inside, rfl⟩))
    unfold uses at once
    omega
  deletedOnce := List.nodup_iff_count.2 fun id =>
    Nat.le_trans (Nat.le_add_left _ _) (ledger.once id)

/-- The ledger is kept over a whole run. -/
theorem Ledger.kept {world : World} (ledger : world.Ledger issued) (sound : world.Sound)
    (operations : List Operation) (counting : world.Throughout settings Counting operations)
    (matched : ∀ operation ∈ operations, operation.Matched)
    (small : issued + world.issued settings operations < UInt64.size) :
    world.Throughout settings (fun now => now.Sound ∧ ∃ issued, now.Ledger issued)
      operations := by
  induction operations generalizing world issued with
  | nil => exact trivial
  | cons operation rest ih =>
      have step := sound.step settings operation
      have total : issued + world.issued settings (operation :: rest) =
          issued + taken world (world.after settings operation) +
            (world.after settings operation).issued settings rest :=
        (Nat.add_assoc ..).symm
      rw [total] at small
      have flow := step.flow sound (matched operation List.mem_cons_self)
      have next := flow.ledger ledger (Nat.lt_of_le_of_lt (Nat.le_add_right ..) small)
      have still := step.sound sound counting.1
      exact ⟨⟨still, _, next⟩, ih next still counting.2
        (fun other member => matched other (List.mem_cons_of_mem _ member)) small⟩

/-- A ledger of blocks makes every moment of a run block safe. -/
theorem Ledger.throughout {world : World} (ledger : world.Ledger issued) (sound : world.Sound)
    (operations : List Operation) (counting : world.Throughout settings Counting operations)
    (matched : ∀ operation ∈ operations, operation.Matched)
    (small : issued + world.issued settings operations < UInt64.size) :
    world.Throughout settings BlockSafe operations :=
  (ledger.kept sound operations counting matched small).mono
    fun _ known => known.2.elim fun _ next => next.blockSafe known.1

/-- Blocks are safe after every operation of every run, whatever fails and however writers are
interleaved, as long as neither the generations nor the block numbers run out. -/
theorem blockSafe_of_counting (settings : Settings) {containers : UInt64}
    {pipelines : Nat → PipelineId} {allocator : Allocator}
    (created : Allocator.new containers pipelines = .ok allocator) (clock : Clock)
    {outages : Outages} (faithful : outages.Faithful) (operations : List Operation)
    (matched : ∀ operation ∈ operations, operation.Matched)
    (counting : (start allocator clock outages).Throughout settings Counting operations)
    (few : (start allocator clock outages).issued settings operations < UInt64.size) :
    (start allocator clock outages).Throughout settings BlockSafe operations := by
  have sound := sound_start allocator clock faithful
  have ledger := ledger_start created clock outages
  exact ledger.throughout sound operations counting matched (Nat.zero_add _ ▸ few)

instance : DecidablePred Operation.Matched
  | .commitKey _ _ _ options => inferInstanceAs (Decidable (options.unchecked = false))
  | .createBucket _ | .openKey _ | .allocateBlock _ | .deleteKey _ _ _ => .isTrue trivial

/-- A writer overwrites a key with one of two blocks and an unknown one, while another that opened
the key before comes too late. A third one goes on writing while the key is deleted. -/
def contending : List Operation :=
  let request : OpenRequest := { volume := "v", bucket := "b", key := "k" }
  [.createBucket { volume := some "v", name := some "b", medium := some .disk },
    .openKey request, .openKey request, .allocateBlock 1,
    .commitKey 0 [{ Block.bare ⟨1, 1⟩ with length := 5 }] 5 {},
    .commitKey 1 [{ Block.bare ⟨1, 2⟩ with length := 7 }] 7 {},
    .openKey request, .openKey request, .allocateBlock 2,
    .commitKey 2 [{ Block.bare ⟨1, 9⟩ with length := 3 },
      { Block.bare ⟨1, 4⟩ with length := 3 }] 3 {},
    .deleteKey "v" "b" "k", .allocateBlock 3]

/-- A service that refuses to update a bucket after the first time, and one write of a key, by which
the second commit would be undone. -/
def obstructed : World :=
  start calm.service.allocator calm.service.clock
    ((Outages.never.during .writeBucket 1 9 (.fail .file)).during .writeKey 3 1 (.fail .file))

set_option maxRecDepth 20000 in
/-- Blocks are safe while a key is stored with a block, is overwritten by a commit that fails and
cannot be undone, and is lost by a deletion that stops halfway. -/
theorem blockSafe_obstructed :
    (∃ allocator, Allocator.new 1 (fun _ => ⟨.replicate 16 0⟩) = .ok allocator) ∧
    obstructed.service.outages.Faithful ∧ (∀ operation ∈ contending, operation.Matched) ∧
    obstructed.Throughout {} Counting contending ∧
    obstructed.issued {} contending < UInt64.size ∧
    (obstructed.moment {} contending 9).service.records.blockIds = [⟨1, 1⟩] ∧
    (obstructed.moment {} contending 10).service.records.blockIds = [⟨1, 4⟩] ∧
    (obstructed.moment {} contending 10).service.allocator.live = [⟨1, 1⟩, ⟨1, 4⟩, ⟨1, 5⟩] ∧
    (obstructed.moment {} contending 11).service.records.blockIds = [] ∧
    obstructed.Throughout {} BlockSafe contending := by
  have matched : ∀ operation ∈ contending, operation.Matched := by decide +kernel
  have runs : obstructed.Throughout {} Counting contending ∧
      obstructed.issued {} contending < UInt64.size := by
    decide +kernel
  have passes : (obstructed.moment {} contending 9).service.records.blockIds = [⟨1, 1⟩] ∧
      (obstructed.moment {} contending 10).service.records.blockIds = [⟨1, 4⟩] ∧
      (obstructed.moment {} contending 10).service.allocator.live = [⟨1, 1⟩, ⟨1, 4⟩, ⟨1, 5⟩] ∧
      (obstructed.moment {} contending 11).service.records.blockIds = [] := by
    decide +kernel
  obtain ⟨counting, few⟩ := runs
  obtain ⟨first, second, live, last⟩ := passes
  have created : Allocator.new 1 (fun _ => ⟨.replicate 16 0⟩) = .ok calm.service.allocator := rfl
  have faithful : obstructed.service.outages.Faithful := fun call same => by cases same
  exact ⟨⟨_, created⟩, faithful, matched, counting, few, first, second, live, last,
    blockSafe_of_counting {} created _ faithful contending matched counting few⟩

end World

end ObjectLedger
