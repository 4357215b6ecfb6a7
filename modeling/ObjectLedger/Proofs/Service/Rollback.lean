import ObjectLedger.Proofs.Service.Step

/-! # Rejected commits are undone

A commit that fails leaves every stored frame as it was, whether it failed before its key was
written or after, unless a call that it made to undo the write was refused
(`Service.UndoRefused`). Of the allocator's live blocks, those allocated to its session are gone and
no others (`World.commit_undone`).
-/

namespace ObjectLedger

/-- A report taken block by block covers the allocated blocks, committed or not. -/
theorem Session.Commits.mem_ids_iff {session : Session} {reported : List Block}
    {options : CommitOptions} {written : KeyRecord} {committed leftOver : List Block}
    (commits : session.Commits reported options written committed leftOver)
    (matched : options.unchecked = false) (id : BlockId) :
    id ∈ (committed ++ leftOver).map (·.id) ↔ id ∈ session.allocated.map (·.id) := by
  have accounted := commits.accounted matched id
  rw [← List.count_pos_iff, ← List.count_pos_iff, List.map_append, List.count_append, accounted]

namespace World

variable {settings : Settings} {before after : World} {outcome : Outcome}

/-- The step of a rejected commit. -/
theorem Step.of_rejected {place : Nat} {session : Session} {reported : List Block}
    {size : UInt64} {options : CommitOptions} {cause : StoreError}
    (step : Step settings before (.commitKey place reported size options) outcome after)
    (found : before.sessionAt place = some session) (matched : options.unchecked = false)
    (rejects : outcome = .failed (.error cause))
    (releases : ¬ before.service.RefusedNext after.service .deleteBlocks)
    (undoes : ¬ before.service.UndoRefused after.service session) :
    after.service.records = before.service.records ∧
      after.service.allocator.live =
        before.service.allocator.live.filter (· ∉ session.allocated.map (·.id)) := by
  cases step with
  | refused early => exact (early _ _ _ _ rfl).elim
  | absent => cases rejects
  | committed there effect =>
      cases there.symm.trans found
      cases effect with
      | untouched reason leaves =>
          cases rejects
          rcases reason cause rfl with ⟨unchecked, -⟩ | refused
          · cases matched.symm.trans unchecked
          · exact (releases refused).elim
      | rejected commits leaves =>
          refine ⟨leaves.records, ?_⟩
          rw [leaves.allocator]
          unfold Allocator.delete
          refine List.filter_congr fun id _ => ?_
          exact decide_eq_decide.2 (not_congr (commits.mem_ids_iff matched id))
      | kept commits writes reason =>
          cases rejects
          exact (undoes (reason cause rfl)).elim
      | settled commits writes charged moves released leaves =>
          rcases released with ⟨⟨outcome, -, rfl⟩, -⟩ | ⟨-, -, refused⟩
          · cases rejects
          · exact (releases refused).elim

/-- A commit that fails in any reachable state leaves the keys and the buckets of the store as they
were, and hands back exactly the blocks of its session, if neither of the calls for that which it
made was refused: the one that undoes the write of its key, and the one that hands back blocks. -/
theorem commit_undone (settings : Settings) (allocator : Allocator) (clock : Clock)
    {outages : Outages} (faithful : outages.Faithful) (operations : List Operation)
    (counting : (start allocator clock outages).Throughout settings Counting operations)
    {world after : World}
    (reached : world = (start allocator clock outages).run settings operations)
    {place : Nat} {session : Session} (found : world.sessionAt place = some session)
    {reported : List Block} {size : UInt64} {options : CommitOptions}
    (matched : options.unchecked = false) {cause : StoreError}
    (rejects : world.perform settings (.commitKey place reported size options) =
      (.failed (.error cause), after))
    (releases : ¬ world.service.RefusedNext after.service .deleteBlocks)
    (undoes : ¬ world.service.UndoRefused after.service session) :
    after.service.records = world.service.records ∧
      after.service.allocator.live =
        world.service.allocator.live.filter (· ∉ session.allocated.map (·.id)) := by
  have sound := (sound_of_reached faithful counting reached).1
  have step := sound.step settings (.commitKey place reported size options)
  unfold World.after at step
  rw [rejects] at step
  exact step.of_rejected found matched rfl releases undoes

/-- A service that refuses the first update of a bucket, and all writes of keys but the first. -/
def contrary : World :=
  start calm.service.allocator calm.service.clock
    ((Outages.never.during .writeBucket 0 1 (.fail .file)).during .writeKey 2 9 (.fail .file))

/-- Two keys are opened for writing, and one of them is overwritten. -/
def reopening : List Operation :=
  let request (key : String) : OpenRequest := { volume := "v", bucket := "b", key }
  [.createBucket { volume := some "v", name := some "b", medium := some .disk },
    .openKey (request "k"), .openKey (request "l"),
    .commitKey 0 [] 0 {}, .commitKey 1 [{ Block.bare ⟨1, 2⟩ with length := 10 }] 10 {},
    .openKey (request "l")]

/-- The world before a first commit, whose bucket cannot be charged. -/
def beforeFirst : World := contrary.run {} (reopening.take 3)

/-- The world before a commit that overwrites a key. -/
def beforeLast : World := contrary.run {} reopening

set_option maxRecDepth 20000 in
/-- A commit is undone after its key was written. Another one fails at writing its key, and makes no
call to undo that, although the next write of a key would be refused. -/
theorem commit_undone_contrary :
    contrary.Throughout {} Counting reopening ∧
    (∃ session after, beforeFirst.sessionAt 0 = some session ∧
      beforeFirst.perform {} (.commitKey 0 [] 0 {}) = (.failed (.error .file), after) ∧
      after.service.records = beforeFirst.service.records ∧
      after.service.allocator.live = beforeFirst.service.allocator.live.filter
        (· ∉ session.allocated.map (·.id))) ∧
    ∃ session after, beforeLast.sessionAt 2 = some session ∧
      beforeLast.perform {} (.commitKey 2 [] 0 {}) = (.failed (.error .file), after) ∧
      beforeLast.service.outages.Refuses .writeKey
        (beforeLast.service.outages.calls .writeKey + 1) ∧
      after.service.records = beforeLast.service.records ∧
      after.service.allocator.live = beforeLast.service.allocator.live.filter
        (· ∉ session.allocated.map (·.id)) := by
  have counting : contrary.Throughout {} Counting reopening ∧
      contrary.Throughout {} Counting (reopening.take 3) := by
    decide +kernel
  have first : (∃ session ∈ beforeFirst.sessionAt 0, session.previous = none) ∧
      (beforeFirst.perform {} (.commitKey 0 [] 0 {})).1 = .failed (.error .file) := by
    decide +kernel
  have last : (∃ session ∈ beforeLast.sessionAt 2, session.previous ≠ none) ∧
      (beforeLast.perform {} (.commitKey 2 [] 0 {})).1 = .failed (.error .file) ∧
      beforeLast.service.outages.calls .writeKey = 2 ∧
      (beforeLast.after {} (.commitKey 2 [] 0 {})).service.outages.calls .writeKey = 3 := by
    decide +kernel
  have firstReached : beforeFirst = contrary.run {} (reopening.take 3) := by
    unfold beforeFirst
    rfl
  have lastReached : beforeLast = contrary.run {} reopening := by
    unfold beforeLast
    rfl
  -- The worlds are not to be computed again below.
  generalize beforeFirst = opened at *
  generalize beforeLast = reopened at *
  have faithful : contrary.service.outages.Faithful := fun call same => by cases same
  have firstSchedule : opened.service.outages.schedule = contrary.service.outages.schedule :=
    (sound_of_reached faithful counting.2 firstReached).2
  have lastSchedule : reopened.service.outages.schedule = contrary.service.outages.schedule :=
    (sound_of_reached faithful counting.1 lastReached).2
  have spared : ∀ {world : World},
      world.service.outages.schedule = contrary.service.outages.schedule → ∀ call,
        ¬ world.service.outages.Refuses .deleteBlocks call ∧
          ¬ world.service.outages.Refuses .deleteKey call := by
    intro world schedule call
    unfold Outages.Refuses
    rw [schedule]
    exact ⟨nofun, nofun⟩
  refine ⟨counting.1, ?_, ?_⟩
  · obtain ⟨⟨session, found, new⟩, fails⟩ := first
    have rejects : opened.perform {} (.commitKey 0 [] 0 {}) =
        (.failed (.error .file), opened.after {} (.commitKey 0 [] 0 {})) := Prod.ext fails rfl
    have undoes : ¬ opened.service.UndoRefused
        (opened.after {} (.commitKey 0 [] 0 {})).service session := by
      unfold Service.UndoRefused
      rw [new]
      exact fun refused => (spared firstSchedule _).2 refused.1
    exact ⟨session, _, found, rejects, commit_undone {} _ _ faithful _ counting.2 firstReached found
      rfl rejects (fun refused => (spared firstSchedule _).1 refused.1) undoes⟩
  · obtain ⟨⟨session, found, old⟩, fails, before, after⟩ := last
    have rejects : reopened.perform {} (.commitKey 2 [] 0 {}) =
        (.failed (.error .file), reopened.after {} (.commitKey 2 [] 0 {})) := Prod.ext fails rfl
    have refuses : reopened.service.outages.Refuses .writeKey
        (reopened.service.outages.calls .writeKey + 1) := by
      unfold Outages.Refuses
      rw [lastSchedule, before]
      exact ⟨.file, rfl⟩
    have undoes : ¬ reopened.service.UndoRefused
        (reopened.after {} (.commitKey 2 [] 0 {})).service session :=
      Service.undoes_of_calls_le old (by omega)
    exact ⟨session, _, found, rejects, refuses, commit_undone {} _ _ faithful _ counting.1
      lastReached found rfl rejects (fun refused => (spared lastSchedule _).1 refused.1) undoes⟩

end World

end ObjectLedger
