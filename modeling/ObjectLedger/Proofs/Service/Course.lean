import ObjectLedger.Proofs.Service.Order

/-! # The course of a commit where no call is refused

Such a commit needs no undoing: it is forbidden before it does anything, overflows, is rejected with
the store as it was, or is carried out (`Action.Course`). A rejected commit hands back every block
of its session. One that is forbidden ends its session too, but hands nothing back
(`World.released_of_failed`).
-/

namespace ObjectLedger

/-- What a commit that is carried out writes, moves and hands back. -/
structure Session.Settles (session : Session) (reported : List Block) (size : UInt64)
    (options : CommitOptions) (before : Service) (commit : Commit) (after : Service) : Prop where
  written : ∃ key, session.Prepares reported size options key commit.reconciliation ∧
    commit.key = { key with generation := commit.key.generation, expected := none }
  moved : ∃ bytes frame, session.Charged commit.key commit.reconciliation.committed bytes ∧
    commit.key.persist = .ok frame ∧
    (before.records.putKey commit.key frame).Moves session.key.volume session.key.bucket bytes
      session.addedKeys after.records
  released : commit.released =
    Action.unreferenced commit.reconciliation session.allocated options.unchecked ++
      session.replaced
  allocator : after.allocator = before.allocator.delete commit.released

/-- Whether its report is matched or not, each allocated block is committed or left over. -/
theorem Session.Commits.mem_ids_of_allocated {session : Session} {reported : List Block}
    {options : CommitOptions} {written : KeyRecord} {committed leftOver : List Block}
    (commits : session.Commits reported options written committed leftOver) {block : Block}
    (allocated : block ∈ session.allocated) : block.id ∈ (committed ++ leftOver).map (·.id) := by
  have given : block.id ∈ session.allocated.map (·.id) := List.mem_map_of_mem allocated
  rw [List.map_append, List.mem_append]
  cases unchecked : options.unchecked with
  | false =>
      have accounted := commits.accounted unchecked block.id
      have positive := List.count_pos_iff.2 given
      rw [← List.count_pos_iff, ← List.count_pos_iff]
      omega
  | true =>
      obtain ⟨named, left⟩ := commits.verbatim unchecked
      by_cases member : block.id ∈ reported.map (·.id)
      · exact .inl (named ▸ member)
      · refine .inr (List.mem_map_of_mem ?_)
        rw [left]
        exact List.mem_filter.2 ⟨allocated, decide_eq_true member⟩

namespace Action

open Service

/-- What a commit does where no call is refused. -/
inductive Course (settings : Settings) (before : Service) (session : Session)
    (reported : List Block) (size : UInt64) (options : CommitOptions) :
    Except Fault Commit → Service → Prop
  | forbidden (forbids : settings.Forbids options) :
      Course settings before session reported size options
        (.error (.error (.settings .uncheckedCommit))) before
  | overflows (cause : Overflow) (after : Service) :
      Course settings before session reported size options (.error (.overflow cause)) after
  | rejected {cause : StoreError} {after : Service} {key : KeyRecord} {outcome : Reconciliation}
      (permits : ¬ settings.Forbids options)
      (prepares : session.Prepares reported size options key outcome)
      (records : after.records = before.records)
      (allocator : after.allocator = before.allocator.delete (outcome.committed ++
        unreferenced outcome session.allocated options.unchecked)) :
      Course settings before session reported size options (.error (.error cause)) after
  | settled {commit : Commit} {after : Service}
      (settles : session.Settles reported size options before commit after) :
      Course settings before session reported size options (.ok commit) after

variable {before : Service}

/-- Where no call is refused, charging a bucket that is no link fails by overflow alone. -/
theorem ensures_chargeUsage_of_silent (sound : before.records.BucketsSound)
    (silent : before.outages.Silent) (settings : Settings) {volume bucket : String}
    {home : BucketRecord} (stands : before.records.Home volume bucket home)
    (bytes keys : Int64) : (chargeUsage settings volume bucket bytes keys).Ensures before
      (fun _ after => ∃ records, before.records.Moves volume bucket bytes keys records ∧
        { before with records }.Idle after)
      (fun fault _ => ∃ cause, fault = .overflow cause) := by
  refine (ensures_chargeUsage sound settings volume bucket bytes keys).mono
    (fun _ _ known => known) fun fault after known => ?_
  cases fault with
  | overflow cause => exact ⟨cause, rfl⟩
  | error cause =>
      have refused := known.2 cause rfl home stands
      exact (refused.not_sparesStore silent.sparesStore).elim

section

variable {start : Service} {session : Session} {home : BucketRecord} {reported : List Block}
  {size : UInt64} {options : CommitOptions} {key : KeyRecord} {outcome : Reconciliation}
  {bytes : Int64}

/-- After the write of its key, a commit charges its bucket and hands back, or overflows. -/
theorem course_chargeCommit (sound : start.records.BucketsSound) (silent : start.outages.Silent)
    (settings : Settings)
    (stands : start.records.Home session.key.volume session.key.bucket home)
    (prepares : session.Prepares reported size options key outcome)
    (charged : session.Charged key outcome.committed bytes) {written : KeyRecord}
    {frame : List UInt8}
    (fields : written = { key with generation := written.generation, expected := none })
    (persisted : written.persist = .ok frame)
    (left : start.Leaves before (start.records.putKey written frame) start.allocator) :
    (chargeCommit settings session outcome
      (unreferenced outcome session.allocated options.unchecked) bytes written).Ensures before
      (fun commit after => Course settings start session reported size options (.ok commit) after)
      (fun fault after =>
        Course settings start session reported size options (.error fault) after) := by
  have volume : written.volume = session.key.volume := by
    rw [fields]
    exact prepares.commits.place.volume.symm
  have bucket : written.bucket = session.key.bucket := by
    rw [fields]
    exact prepares.commits.place.bucket.symm
  have there : before.records.Home written.volume written.bucket home := by
    rw [volume, bucket, left.records]
    exact stands.of_buckets rfl
  have soundBefore : before.records.BucketsSound := left.records ▸ sound.of_buckets rfl
  refine ((ensures_chargeUsage_of_silent soundBefore (silent.of_schedule left.schedule) settings
    there bytes session.addedKeys).attempted ?_).bind fun result middle known => ?_
  · exact fun cause after _ => .overflows cause after
  cases result with
  | error cause =>
      obtain ⟨overflow, same⟩ := known
      cases same
  | ok _ =>
      obtain ⟨records, moves, idle⟩ := known
      obtain rfl : middle.records = records := idle.records
      rw [left.records, volume, bucket] at moves
      have schedule := idle.schedule.trans left.schedule
      have allocator : middle.allocator = start.allocator := idle.allocator.trans left.allocator
      refine (ensures_deleteBlocks_of_silent (silent.of_schedule schedule) _).bind
        fun _ after released => ensures_pure (.settled ?_)
      subst released
      refine ⟨⟨key, prepares, fields⟩, ⟨bytes, frame, ?_, persisted, moves⟩, rfl, ?_⟩
      · rw [fields]
        exact charged
      · exact congrArg (Allocator.delete · _) allocator

/-- From the write of its key on, a commit is rejected with the store as it was, carried out, or
overflows. -/
theorem course_storeCommit (idle : start.Idle before) (sound : start.records.BucketsSound)
    (silent : start.outages.Silent) (settings : Settings)
    (stands : start.records.Home session.key.volume session.key.bucket home)
    (permits : ¬ settings.Forbids options)
    (prepares : session.Prepares reported size options key outcome)
    (charged : session.Charged key outcome.committed bytes) :
    (storeCommit settings session outcome
      (unreferenced outcome session.allocated options.unchecked) bytes key).Ensures before
      (fun commit after => Course settings start session reported size options (.ok commit) after)
      (fun fault after =>
        Course settings start session reported size options (.error fault) after) := by
  have soundBefore : before.records.BucketsSound := idle.records.symm ▸ sound
  refine ((ensures_writeCommitted soundBefore settings key bytes session.addedKeys).attempted
    ?_).bind fun result middle known => ?_
  · exact fun cause after _ => .overflows cause after
  have counted := idle.counted .writeKey
  cases result with
  | error cause =>
      have left : start.Leaves middle start.records start.allocator := by
        rcases known with known | known
        · exact (idle.trans_ended known).halted.leaves
        · have halted := counted.trans_halted known.halted
          exact ⟨halted.records, halted.allocator, halted.schedule, halted.generation⟩
      refine (ensures_deleteBlocks_of_silent (silent.of_schedule left.schedule) _).bind
        fun _ after released => ensures_fail ?_
      subst released
      exact .rejected permits prepares left.records (congrArg (Allocator.delete · _) left.allocator)
  | ok written =>
      obtain ⟨⟨frame, writes⟩, -⟩ := known
      have later := (counted.withRecords _).trans writes.idle
      refine course_chargeCommit sound silent settings stands prepares charged writes.fields
        writes.persisted ⟨?_, later.allocator, later.schedule, .inr later.generation⟩
      rw [later.records, idle.records]

end

/-- Where no call is refused, a commit of a session whose bucket is no link takes its course. -/
theorem course_commitKey (sound : before.records.BucketsSound) (silent : before.outages.Silent)
    (settings : Settings) {session : Session} (prepared : session.Sound) {home : BucketRecord}
    (stands : before.records.Home session.key.volume session.key.bucket home)
    (reported : List Block) (size : UInt64) (options : CommitOptions) :
    (commitKey settings session reported size options).Ensures before
      (fun commit after => Course settings before session reported size options (.ok commit) after)
      (fun fault after =>
        Course settings before session reported size options (.error fault) after) := by
  apply ensures_prepared prepared
  · exact fun forbids => .forbidden forbids
  · exact fun _ _ cause => .overflows cause _
  · exact fun permits _ _ _ _ prepares charged => course_storeCommit (idle_ticked before) sound
      silent settings stands permits prepares charged

end Action

namespace World

variable {settings : Settings} {world : World}

/-- Where no call is refused, a commit of an open session ends it and takes its course. -/
theorem Ordered.course (ordered : world.Ordered) (silent : world.service.outages.Silent)
    (settings : Settings) {place : Nat} {session : Session}
    (found : world.sessionAt place = some session) (reported : List Block) (size : UInt64)
    (options : CommitOptions) : ∃ result service,
    world.perform settings (.commitKey place reported size options) =
        (.ofCommit result, ⟨service, world.sessions.set place none⟩) ∧
      Action.Course settings world.service session reported size options result service := by
  obtain ⟨home, stands⟩ := (ordered.fits place session found).home
  exact perform_commitKey found (Action.course_commitKey ordered.records.toBucketsSound silent
    settings (ordered.sessions place session found).toSound stands reported size options)

/-- In every state of a service that refuses no call, a commit of an open session ends it. If it
answers an error, no block that was allocated to the session is live any more, unless the report
was to be taken as it is and the settings do not allow that: then nothing was done, and every block
that was live is live still. -/
theorem released_of_failed (settings : Settings) (allocator : Allocator) (clock : Clock)
    (operations : List Operation) {world : World}
    (reached : world = (start allocator clock .never).run settings operations) {place : Nat}
    {session : Session} (found : world.sessionAt place = some session) (reported : List Block)
    (size : UInt64) (options : CommitOptions) {cause : StoreError}
    (failed : (world.perform settings (.commitKey place reported size options)).1 =
      .failed (.error cause)) :
    (world.after settings (.commitKey place reported size options)).sessionAt place = none ∧
    (¬ settings.Forbids options → ∀ block ∈ session.allocated, block.id ∉
      (world.after settings (.commitKey place reported size options)).service.allocator.live) ∧
    (settings.Forbids options → cause = .settings .uncheckedCommit ∧
      (world.after settings (.commitKey place reported size options)).service =
        world.service) := by
  obtain ⟨ordered, silent⟩ := ordered_of_never reached
  obtain ⟨result, service, performed, course⟩ :=
    ordered.course silent settings found reported size options
  unfold World.after
  rw [performed] at failed ⊢
  refine ⟨(sessionAt_set found service none place).trans (if_pos rfl), ?_, ?_⟩
  · intro permits block allocated
    cases course with
    | forbidden forbids => exact (permits forbids).elim
    | overflows => cases failed
    | settled => cases failed
    | rejected _ prepares records returned =>
        rw [returned]
        exact fun live => (Allocator.mem_live_delete.1 live).2
          (prepares.commits.mem_ids_of_allocated allocated)
  · intro forbids
    cases course with
    | forbidden =>
        cases failed
        exact ⟨rfl, rfl⟩
    | overflows => cases failed
    | settled => cases failed
    | rejected permits => exact (permits forbids).elim

set_option maxRecDepth 20000 in
/-- The second of two writers comes too late, and its block is handed back. -/
theorem released_of_conflict :
    ((calm.run {} (twoWriters.take 4)).perform {} (.commitKey 1 [] 0 {})).1 =
      .failed (.error (.concurrent "/v/b/k" none (some 2))) ∧
    ∃ session, (calm.run {} (twoWriters.take 4)).sessionAt 1 = some session ∧
      ∃ block ∈ session.allocated,
        block.id ∈ (calm.run {} (twoWriters.take 4)).service.allocator.live ∧
        block.id ∉ ((calm.run {} (twoWriters.take 4)).after {}
          (.commitKey 1 [] 0 {})).service.allocator.live := by
  have runs : ((calm.run {} (twoWriters.take 4)).perform {} (.commitKey 1 [] 0 {})).1 =
        .failed (.error (.concurrent "/v/b/k" none (some 2))) ∧
      ∃ session ∈ (calm.run {} (twoWriters.take 4)).sessionAt 1, ∃ block ∈ session.allocated,
        block.id ∈ (calm.run {} (twoWriters.take 4)).service.allocator.live := by
    decide +kernel
  have same : calm = start calm.service.allocator calm.service.clock .never := rfl
  have reached := congrArg (run {} · (twoWriters.take 4)) same
  -- The world is not to be computed again below.
  generalize calm.run {} (twoWriters.take 4) = world at *
  obtain ⟨failed, session, found, block, allocated, live⟩ := runs
  have released := (released_of_failed {} calm.service.allocator calm.service.clock
    (twoWriters.take 4) reached found [] 0 {} failed).2.1 (by decide) block allocated
  exact ⟨failed, session, found, block, allocated, live, released⟩

set_option maxRecDepth 20000 in
/-- A commit that the settings do not allow ends its session, and the block of the session stays
live. -/
theorem live_of_forbidden :
    (∃ session ∈ (calm.run {} (twoWriters.take 2)).sessionAt 0,
      ⟨1, 1⟩ ∈ session.allocated.map (·.id)) ∧
    ((calm.run {} (twoWriters.take 2)).perform {} (.commitKey 0 [] 0 { unchecked := true })).1 =
      .failed (.error (.settings .uncheckedCommit)) ∧
    ((calm.run {} (twoWriters.take 2)).after {}
      (.commitKey 0 [] 0 { unchecked := true })).sessionAt 0 = none ∧
    ((calm.run {} (twoWriters.take 2)).after {}
      (.commitKey 0 [] 0 { unchecked := true })).service.allocator.isLive ⟨1, 1⟩ = true := by
  decide +kernel

end World

end ObjectLedger
