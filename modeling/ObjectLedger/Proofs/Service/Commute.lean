import ObjectLedger.Proofs.Service.Course

/-! # Commits of different keys commute

Two commits share the records of buckets, the counter of generations, the clock and the allocator.
What a commit writes under the path of its key, adds to its bucket and hands back is settled by its
session and its report, apart from dates (`Session.Settles.alike`), and charges to a bucket add up
in any order. If two commits to different keys succeed in both orders, they therefore leave the same
records apart from dates, and the same live blocks (`World.commits_commute`).
-/

namespace ObjectLedger

/-- A key apart from its generation and the time of its last change. -/
def KeyRecord.undated (key : KeyRecord) : KeyRecord := { key with generation := 0, modified := 0 }

/-- A bucket apart from the identifier and the time of its last update. -/
def BucketRecord.undated (bucket : BucketRecord) : BucketRecord :=
  { bucket with updateId := 0, modified := 0 }

/-- Charges to a bucket add up in any order. -/
theorem BucketRecord.charge_charge (bucket : BucketRecord) (bytes keys bytes' keys' : Int64) :
    (bucket.charge bytes keys).charge bytes' keys' =
      (bucket.charge bytes' keys').charge bytes keys := by
  unfold charge
  simp only [Int64.add_assoc, Int64.add_comm bytes, Int64.add_comm keys]

/-- Two stores hold the same records apart from their dates. -/
structure Records.Alike (first second : Records) : Prop where
  keys : ∀ path, (first.keyAt path).map (·.undated) = (second.keyAt path).map (·.undated)
  buckets : ∀ path,
    (first.bucketAt path).map (·.undated) = (second.bucketAt path).map (·.undated)

/-- Buckets that are the same apart from dates are used alike. -/
theorem Records.Alike.used {first second : Records} (alike : first.Alike second) (path : String)
    (kind : QuotaKind) :
    (first.bucketAt path).map (·.used kind) = (second.bucketAt path).map (·.used kind) := by
  have same := congrArg (Option.map (·.used kind)) (alike.buckets path)
  rw [Option.map_map, Option.map_map] at same
  exact same

/-- Two commits give the same result apart from dates. -/
structure Commit.Alike (first second : Commit) : Prop where
  key : first.key.undated = second.key.undated
  reconciliation : first.reconciliation = second.reconciliation
  released : first.released = second.released

/-- Two worlds hold the same records apart from dates, the same live blocks and the same
sessions. -/
structure World.Alike (first second : World) : Prop where
  records : first.service.records.Alike second.service.records
  live : first.service.allocator.live = second.service.allocator.live
  sessions : first.sessions = second.sessions

/-- A move of usage moves the home that its name leads to, and every other path stays. -/
theorem Records.Moves.bucketAt {before after : Records} {volume name : String}
    {bytes keys : Int64} (moves : before.Moves volume name bytes keys after)
    (sound : before.BucketsSound) {home : BucketRecord}
    (stands : before.Home volume name home) (path : String) : ∃ updateId time,
      after.bucketAt path = if path = bucketPath volume name then
        some (home.moved bytes keys updateId time) else before.bucketAt path := by
  obtain ⟨target, updateId, time, frame, -, leads, persisted⟩ := moves
  obtain rfl := Option.some.inj (stands.resolve.symm.trans leads)
  refine ⟨updateId, time, ?_⟩
  rw [bucketAt_putBucket ((stands.wellFormed sound).moved bytes keys updateId time) persisted]
  change (if path = bucketPath home.volume home.name then _ else _) = _
  rw [stands.volume, stands.name]

namespace Session

variable {session left right : Session} {reported : List Block} {size : UInt64}
  {options : CommitOptions} {before after before' after' : Service} {commit commit' : Commit}

/-- What the bucket under a path becomes when that of a session is charged. -/
def chargeAt (session : Session) (bytes : Int64) (path : String) (bucket : BucketRecord) :
    BucketRecord :=
  if path = bucketPath session.key.volume session.key.bucket then
    bucket.charge bytes session.addedKeys
  else bucket

/-- Charges of two commits add up in either order. -/
theorem chargeAt_comm (left right : Session) (bytes bytes' : Int64) (path : String)
    (bucket : BucketRecord) :
    right.chargeAt bytes' path (left.chargeAt bytes path bucket) =
      left.chargeAt bytes path (right.chargeAt bytes' path bucket) := by
  unfold chargeAt
  by_cases ofLeft : path = bucketPath left.key.volume left.key.bucket
  · by_cases ofRight : path = bucketPath right.key.volume right.key.bucket
    · simp only [if_pos ofLeft, if_pos ofRight, BucketRecord.charge_charge]
    · simp only [if_neg ofRight]
  · simp only [if_neg ofLeft]

/-- The bytes that a commit is charged for are settled by its key and its blocks. -/
theorem Charged.unique {written : KeyRecord} {committed : List Block} {bytes bytes' : Int64}
    (charged : session.Charged written committed bytes)
    (charged' : session.Charged written committed bytes') : bytes = bytes' := by
  obtain ⟨added, freed, ofAdded, ofFreed, rfl⟩ := charged
  obtain ⟨added', freed', ofAdded', ofFreed', rfl⟩ := charged'
  cases ofAdded.symm.trans ofAdded'
  cases ofFreed.symm.trans ofFreed'
  rfl

namespace Settles

/-- The key that was written, as the commit gave it back. -/
theorem commits (settles : session.Settles reported size options before commit after) :
    session.Commits reported options commit.key commit.reconciliation.committed
      (Action.unreferenced commit.reconciliation session.allocated options.unchecked) := by
  obtain ⟨key, prepares, fields⟩ := settles.written
  exact Action.commits_of_fields prepares.commits fields

/-- The key is that of the session with its report, apart from dates. -/
theorem undated (settles : session.Settles reported size options before commit after) :
    ∃ history, session.key.commit reported options =
        .ok ({ session.key with history }, commit.reconciliation) ∧
      commit.key.undated = { session.key.undated with history, size, expected := none } := by
  obtain ⟨key, prepares, fields⟩ := settles.written
  refine ⟨key.history, prepares.built, ?_⟩
  rw [fields, prepares.fields]
  rfl

/-- What a commit gives back is settled by its session and its report, apart from dates. -/
theorem alike (settles : session.Settles reported size options before commit after)
    (settles' : session.Settles reported size options before' commit' after') :
    commit.Alike commit' := by
  obtain ⟨history, built, key⟩ := settles.undated
  obtain ⟨history', built', key'⟩ := settles'.undated
  obtain ⟨base, reconciliation⟩ := Prod.mk.inj (Except.ok.inj (built.symm.trans built'))
  have same : history = history' := congrArg (fun key : KeyRecord => key.history) base
  refine ⟨?_, reconciliation, ?_⟩
  · rw [key, key', same]
  · rw [settles.released, settles'.released, reconciliation]

/-- A commit that went through stores its key and no other one. -/
theorem keyAt (settles : session.Settles reported size options before commit after)
    (path : String) : after.records.keyAt path =
      if path = session.path then some commit.key.asStored else before.records.keyAt path := by
  obtain ⟨bytes, frame, -, persisted, moves⟩ := settles.moved
  rw [moves.keyAt_eq, Records.keyAt_putKey settles.commits.wellFormed persisted,
    settles.commits.path]

/-- The bucket of a session is charged, and the others stay, apart from dates. -/
theorem bucketAt (settles : session.Settles reported size options before commit after)
    (sound : before.records.BucketsSound) {home : BucketRecord}
    (stands : before.records.Home session.key.volume session.key.bucket home) :
    ∃ bytes, session.Charged session.key commit.reconciliation.committed bytes ∧
      ∀ path, (after.records.bucketAt path).map (·.undated) =
        ((before.records.bucketAt path).map (·.undated)).map (session.chargeAt bytes path) := by
  obtain ⟨bytes, frame, charged, -, moves⟩ := settles.moved
  unfold Charged at charged
  rw [settles.commits.replication] at charged
  refine ⟨bytes, charged, fun path => ?_⟩
  have there : (before.records.putKey commit.key frame).Home session.key.volume
    session.key.bucket home := stands.of_buckets rfl
  obtain ⟨updateId, time, seen⟩ := moves.bucketAt (sound.of_buckets rfl) there path
  have kept : (before.records.putKey commit.key frame).bucketAt path =
    before.records.bucketAt path := Records.bucketAt_of_buckets rfl path
  unfold chargeAt
  by_cases own : path = bucketPath session.key.volume session.key.bucket
  · rw [seen, if_pos own, own, stands.seen]
    simp only [if_pos]
    rfl
  · rw [seen, if_neg own, kept]
    simp only [if_neg own, Option.map_id']

/-- A commit that went through keeps the buckets that are no links. -/
theorem keeps (settles : session.Settles reported size options before commit after)
    (sound : before.records.BucketsSound) : before.records.Keeps after.records := by
  obtain ⟨bytes, frame, -, -, moves⟩ := settles.moved
  have put : before.records.Keeps (before.records.putKey commit.key frame) := .of_buckets rfl
  exact put.trans (moves.keeps (sound.of_buckets rfl))

/-- A commit that went through keeps the buckets readable. -/
theorem bucketsSound (settles : session.Settles reported size options before commit after)
    (sound : before.records.BucketsSound) : after.records.BucketsSound := by
  obtain ⟨bytes, frame, -, -, moves⟩ := settles.moved
  exact moves.bucketsSound (sound.of_buckets rfl)

end Settles

section

variable {leftReport rightReport : List Block} {leftSize rightSize : UInt64}
  {leftOptions rightOptions : CommitOptions} {middle middle' : Service}
  {first second first' second' : Commit}

/-- Keys come out the same in both orders, but for generations and times. -/
theorem Settles.keyAt_commute
    (ofLeft : left.Settles leftReport leftSize leftOptions before first middle)
    (apart : left.path ≠ right.path)
    (thenRight : right.Settles rightReport rightSize rightOptions middle second after)
    (ofRight : right.Settles rightReport rightSize rightOptions before second' middle')
    (thenLeft : left.Settles leftReport leftSize leftOptions middle' first' after')
    (path : String) :
    (after.records.keyAt path).map (·.undated) = (after'.records.keyAt path).map (·.undated) := by
  have sameLeft : first.key.asStored.undated = first'.key.asStored.undated :=
    congrArg KeyRecord.asStored (ofLeft.alike thenLeft).key
  have sameRight : second.key.asStored.undated = second'.key.asStored.undated :=
    congrArg KeyRecord.asStored (thenRight.alike ofRight).key
  rw [thenRight.keyAt, ofLeft.keyAt, thenLeft.keyAt, ofRight.keyAt]
  by_cases atLeft : path = left.path
  · have notRight : path ≠ right.path := atLeft ▸ apart
    rw [if_neg notRight, if_pos atLeft, if_pos atLeft]
    exact congrArg some sameLeft
  · rw [if_neg atLeft, if_neg atLeft]
    by_cases atRight : path = right.path
    · rw [if_pos atRight, if_pos atRight]
      exact congrArg some sameRight
    · rw [if_neg atRight, if_neg atRight]

/-- Whichever is charged first, the two buckets (or the one) are charged for the same bytes. -/
theorem Settles.bucketAt_commute
    (ofLeft : left.Settles leftReport leftSize leftOptions before first middle)
    (sound : before.records.BucketsSound)
    (leftHome : ∃ home, before.records.Home left.key.volume left.key.bucket home)
    (rightHome : ∃ home, before.records.Home right.key.volume right.key.bucket home)
    (thenRight : right.Settles rightReport rightSize rightOptions middle second after)
    (ofRight : right.Settles rightReport rightSize rightOptions before second' middle')
    (thenLeft : left.Settles leftReport leftSize leftOptions middle' first' after')
    (path : String) :
    (after.records.bucketAt path).map (·.undated) =
      (after'.records.bucketAt path).map (·.undated) := by
  obtain ⟨_, leftStays⟩ := (ofRight.keeps sound).exists_home leftHome
  obtain ⟨_, rightStays⟩ := (ofLeft.keeps sound).exists_home rightHome
  obtain ⟨_, leftStands⟩ := leftHome
  obtain ⟨_, rightStands⟩ := rightHome
  obtain ⟨bytes, charged, seen⟩ := ofLeft.bucketAt sound leftStands
  obtain ⟨bytes', charged', seen'⟩ := ofRight.bucketAt sound rightStands
  obtain ⟨_, again', next'⟩ := thenRight.bucketAt (ofLeft.bucketsSound sound) rightStays
  obtain ⟨_, again, next⟩ := thenLeft.bucketAt (ofRight.bucketsSound sound) leftStays
  rw [← (ofLeft.alike thenLeft).reconciliation] at again
  rw [(thenRight.alike ofRight).reconciliation] at again'
  obtain rfl := charged.unique again
  obtain rfl := charged'.unique again'
  rw [next', seen, next, seen', Option.map_map, Option.map_map (left.chargeAt bytes path)]
  apply congrArg (Option.map · _)
  funext bucket
  exact left.chargeAt_comm right bytes bytes' path bucket

/-- What two commits to different keys leave does not depend on their order, apart from dates. -/
theorem Settles.commute
    (ofLeft : left.Settles leftReport leftSize leftOptions before first middle)
    (sound : before.records.BucketsSound)
    (leftHome : ∃ home, before.records.Home left.key.volume left.key.bucket home)
    (rightHome : ∃ home, before.records.Home right.key.volume right.key.bucket home)
    (apart : left.path ≠ right.path)
    (thenRight : right.Settles rightReport rightSize rightOptions middle second after)
    (ofRight : right.Settles rightReport rightSize rightOptions before second' middle')
    (thenLeft : left.Settles leftReport leftSize leftOptions middle' first' after') :
    after.records.Alike after'.records ∧ after.allocator.live = after'.allocator.live := by
  refine ⟨⟨ofLeft.keyAt_commute apart thenRight ofRight thenLeft,
    ofLeft.bucketAt_commute sound leftHome rightHome thenRight ofRight thenLeft⟩, ?_⟩
  rw [thenRight.allocator, ofLeft.allocator, thenLeft.allocator, ofRight.allocator,
    (ofLeft.alike thenLeft).released, (thenRight.alike ofRight).released,
    Allocator.live_delete_delete]

end

end Session

/-- An operation commits a report to an open session. -/
def Operation.CommitsTo (operation : Operation) (world : World) (session : Session) : Prop :=
  ∃ place reported size options, operation = .commitKey place reported size options ∧
    world.sessionAt place = some session

namespace World

variable {settings : Settings} {world : World}

/-- A commit that succeeds where no call is refused settles what its session prepared. -/
theorem Ordered.settles (ordered : world.Ordered) (silent : world.service.outages.Silent)
    {place : Nat} {session : Session} (found : world.sessionAt place = some session)
    {reported : List Block} {size : UInt64} {options : CommitOptions} {commit : Commit}
    (answered : (world.perform settings (.commitKey place reported size options)).1 =
      .keyCommitted commit) :
    session.Settles reported size options world.service commit
        (world.after settings (.commitKey place reported size options)).service ∧
      (world.after settings (.commitKey place reported size options)).sessions =
        world.sessions.set place none := by
  obtain ⟨result, service, performed, course⟩ :=
    ordered.course silent settings found reported size options
  unfold World.after
  rw [performed] at answered ⊢
  cases course with
  | forbidden => cases answered
  | overflows => cases answered
  | rejected => cases answered
  | settled settles =>
      cases answered
      exact ⟨settles, rfl⟩

/-- Two commits that succeed one after the other settle what their sessions had prepared when they
were opened. -/
theorem Ordered.settles_both (ordered : world.Ordered) (silent : world.service.outages.Silent)
    {here there : Nat} (places : there ≠ here) {left right : Session}
    (leftFound : world.sessionAt here = some left)
    (rightFound : world.sessionAt there = some right) {leftReport rightReport : List Block}
    {leftSize rightSize : UInt64} {leftOptions rightOptions : CommitOptions}
    {one other : Operation} (isOne : one = .commitKey here leftReport leftSize leftOptions)
    (isOther : other = .commitKey there rightReport rightSize rightOptions)
    {first second : Commit} (answered : world.outcomes settings [one, other] =
      [.keyCommitted first, .keyCommitted second]) :
    ∃ middle, left.Settles leftReport leftSize leftOptions world.service first middle ∧
      right.Settles rightReport rightSize rightOptions middle second
        (world.run settings [one, other]).service ∧
      (world.run settings [one, other]).sessions =
        (world.sessions.set here none).set there none := by
  subst isOne isOther
  simp only [outcomes, List.cons.injEq, and_true] at answered
  obtain ⟨ofLeft, sessions⟩ := ordered.settles silent leftFound answered.1
  have schedule := (changes_perform ordered.records.toBucketsSound settings
    (.commitKey here leftReport leftSize leftOptions)).schedule
  have stays : (world.after settings (.commitKey here leftReport leftSize
      leftOptions)).sessionAt there = some right := by
    unfold sessionAt
    rw [sessions, List.getElem?_set_ne places.symm]
    exact rightFound
  obtain ⟨ofRight, sessions'⟩ :=
    (ordered.after settings _).settles (silent.of_schedule schedule) stays answered.2
  exact ⟨_, ofLeft, ofRight, sessions'.trans (congrArg (List.set · there none) sessions)⟩

/-- In every state of a service that refuses no call, two commits to different keys that succeed in
both orders give the same results in both, and leave the same keys and buckets, apart from
generations, update identifiers and times, as well as the same live blocks. In particular the usage
of every bucket is the same. -/
theorem commits_commute (settings : Settings) (allocator : Allocator) (clock : Clock)
    (operations : List Operation) {world : World}
    (reached : world = (start allocator clock .never).run settings operations)
    {one other : Operation} {left right : Session} (toLeft : one.CommitsTo world left)
    (toRight : other.CommitsTo world right) (apart : left.path ≠ right.path)
    {first second first' second' : Commit}
    (forwards : world.outcomes settings [one, other] =
      [.keyCommitted first, .keyCommitted second])
    (backwards : world.outcomes settings [other, one] =
      [.keyCommitted second', .keyCommitted first']) :
    first.Alike first' ∧ second.Alike second' ∧
      (world.run settings [one, other]).Alike (world.run settings [other, one]) ∧
      ∀ path kind,
        ((world.run settings [one, other]).service.records.bucketAt path).map (·.used kind) =
          ((world.run settings [other, one]).service.records.bucketAt path).map (·.used kind) := by
  obtain ⟨ordered, silent⟩ := ordered_of_never reached
  obtain ⟨here, leftReport, leftSize, leftOptions, isOne, leftFound⟩ := toLeft
  obtain ⟨there, rightReport, rightSize, rightOptions, isOther, rightFound⟩ := toRight
  have places : there ≠ here := by
    rintro rfl
    cases leftFound.symm.trans rightFound
    exact apart rfl
  obtain ⟨middle, ofLeft, thenRight, sessions⟩ :=
    ordered.settles_both silent places leftFound rightFound isOne isOther forwards
  obtain ⟨middle', ofRight, thenLeft, sessions'⟩ :=
    ordered.settles_both silent places.symm rightFound leftFound isOther isOne backwards
  obtain ⟨records, live⟩ := ofLeft.commute ordered.records.toBucketsSound
    (ordered.fits here left leftFound).home (ordered.fits there right rightFound).home apart
    thenRight ofRight thenLeft
  refine ⟨ofLeft.alike thenLeft, thenRight.alike ofRight, ⟨records, live, ?_⟩, records.used⟩
  rw [sessions, sessions', List.set_comm _ _ places]

/-- The key k is stored with a block, and sessions are open for it and for the new key j. -/
def refilling : List Operation :=
  let request : OpenRequest := { volume := "v", bucket := "b", key := "k" }
  [.createBucket { volume := some "v", name := some "b", medium := some .disk },
    .openKey request, storeBlock, .openKey request, .openKey { request with key := "j" }]

/-- The commit that replaces the block of the key k. -/
def refill : Operation := .commitKey 1 [{ Block.bare ⟨1, 2⟩ with length := 5 }] 5 {}

/-- The commit of the key j. -/
def addition : Operation := .commitKey 2 [{ Block.bare ⟨1, 3⟩ with length := 7 }] 7 {}

set_option maxRecDepth 20000 in
/-- The two keys get other generations in the other order, and are the same apart from them. -/
theorem commits_commute_refilling : ∃ first second first' second' : Commit,
    (calm.run {} refilling).outcomes {} [refill, addition] =
      [.keyCommitted first, .keyCommitted second] ∧
    (calm.run {} refilling).outcomes {} [addition, refill] =
      [.keyCommitted second', .keyCommitted first'] ∧
    first.key.generation ≠ first'.key.generation ∧ first.released.length = 1 ∧
    first.Alike first' ∧ second.Alike second' ∧
      ((calm.run {} refilling).run {} [refill, addition]).Alike
        ((calm.run {} refilling).run {} [addition, refill]) := by
  have runs : (∃ left ∈ (calm.run {} refilling).sessionAt 1,
        ∃ right ∈ (calm.run {} refilling).sessionAt 2, left.path ≠ right.path) ∧
      (∃ first ∈ ((calm.run {} refilling).perform {} refill).1.commit?,
        ∃ first' ∈ (((calm.run {} refilling).after {} addition).perform {} refill).1.commit?,
          first.key.generation ≠ first'.key.generation ∧ first.released.length = 1) ∧
      (((calm.run {} refilling).after {} refill).perform {} addition).1.commit?.isSome ∧
      ((calm.run {} refilling).perform {} addition).1.commit?.isSome := by
    decide +kernel
  have same : calm = start calm.service.allocator calm.service.clock .never := rfl
  have reached := congrArg (run {} · refilling) same
  -- The world is not to be computed again below.
  generalize calm.run {} refilling = world at *
  obtain ⟨⟨left, leftFound, right, rightFound, apart⟩, ⟨first, isFirst, first', isFirst', facts⟩,
    isSecond, isSecond'⟩ := runs
  obtain ⟨second, isSecond⟩ := Option.isSome_iff_exists.1 isSecond
  obtain ⟨second', isSecond'⟩ := Option.isSome_iff_exists.1 isSecond'
  have forwards : world.outcomes {} [refill, addition] =
      [.keyCommitted first, .keyCommitted second] := by
    rw [outcomes, outcomes, outcomes, Outcome.commit?_eq_some_iff.1 isFirst,
      Outcome.commit?_eq_some_iff.1 isSecond]
  have backwards : world.outcomes {} [addition, refill] =
      [.keyCommitted second', .keyCommitted first'] := by
    rw [outcomes, outcomes, outcomes, Outcome.commit?_eq_some_iff.1 isFirst',
      Outcome.commit?_eq_some_iff.1 isSecond']
  obtain ⟨firstAlike, secondAlike, worlds, -⟩ :=
    commits_commute {} calm.service.allocator calm.service.clock refilling reached
      ⟨1, _, _, _, rfl, leftFound⟩ ⟨2, _, _, _, rfl, rightFound⟩ apart forwards backwards
  exact ⟨first, second, first', second', forwards, backwards, facts.1, facts.2, firstAlike,
    secondAlike, worlds⟩

end World

end ObjectLedger
