import ObjectLedger.Proofs.Service.Accounts
import ObjectLedger.Proofs.Service.Step

/-! # Usage is exact

The counters of a bucket are only ever moved by deltas, and a commit computes its delta from the
record that its session found. They still say exactly what the stored keys of the bucket use
beyond its counters at creation (`World.usageExact_of_counting`), because a commit that is
carried out finds that same record in the store, and because a store that refuses no call lets
no change of keys stand without its charge.
-/

namespace ObjectLedger

/-! ## Charges of commits -/

/-- Storing a key does not change what is charged for it. -/
theorem KeyRecord.charge_asStored {key : KeyRecord} {group : VersionGroup}
    (history : key.history = [group]) {bytes : Int64}
    (charge : key.replication.charge group.blocks = .ok bytes) :
    key.asStored.ChargedOnce ∧ key.asStored.chargedBytes = bytes := by
  have stored : key.asStored.history = [group.withoutPipelines] := by
    unfold asStored
    rw [history]
    rfl
  have same : key.asStored.replication.charge group.withoutPipelines.blocks = .ok bytes :=
    (key.replication.charge_congr group.lengths_withoutPipelines).trans charge
  have counted : key.asStored.chargedBytes = bytes :=
    chargedBytes_eq stored same
  exact ⟨⟨_, stored, counted ▸ same⟩, counted⟩

/-- A key that is charged once is charged for all of its blocks together. -/
theorem KeyRecord.ChargedOnce.allBlocks {key : KeyRecord} (once : key.ChargedOnce) :
    key.replication.charge key.allBlocks = .ok key.chargedBytes := by
  obtain ⟨group, history, charge⟩ := once
  have blocks : key.allBlocks = group.blocks := by
    unfold KeyRecord.allBlocks
    rw [history, List.flatMap_singleton]
  rwa [blocks]

/-- Without versioning a commit is charged for the record it writes, less the one it replaces. -/
theorem Session.charged_of_unversioned {session : Session} {reported : List Block}
    {options : CommitOptions} {written : KeyRecord} {committed leftOver : List Block}
    {bytes : Int64}
    (unversioned : session.versioning = false)
    (commits : session.Commits reported options written committed leftOver)
    (charged : session.Charged written committed bytes)
    (once : ∀ old, session.previous = some old → old.ChargedOnce) :
    written.asStored.ChargedOnce ∧
      bytes + chargedFor session.previous.toList = chargedFor [written.asStored] := by
  obtain ⟨added, freed, addedCharge, freedCharge, rfl⟩ := charged
  obtain ⟨group, history, rfl⟩ := commits.history
  rw [session.older_of_unversioned unversioned] at history
  obtain ⟨stored, counted⟩ := KeyRecord.charge_asStored history addedCharge
  have taken : freed = chargedFor session.previous.toList := by
    unfold Session.replaced at freedCharge
    cases previous : session.previous with
    | none =>
        rw [previous] at freedCharge
        exact Except.ok.inj (freedCharge.symm.trans (Replication.charge_nil _))
    | some old =>
        rw [previous, unversioned] at freedCharge
        have same := Except.ok.inj (freedCharge.symm.trans (once old previous).allBlocks)
        rw [same]
        exact (Int64.add_zero _).symm
  refine ⟨stored, ?_⟩
  rw [← taken, chargedFor_cons, counted]
  change added - freed + freed = added + 0
  grind

/-- Under the path of a session is the key that it found. -/
theorem Session.FoundIn.keyAt {session : Session} {records : Records}
    (found : session.FoundIn records) : records.keyAt session.path = session.previous := by
  unfold Session.FoundIn at found
  cases previous : session.previous with
  | none =>
      rw [previous] at found
      exact Records.keyAt_of_absent found
  | some old =>
      rw [previous] at found
      obtain ⟨stored, there, holds⟩ := found
      exact Records.keyAt_of_holds there holds

/-- The stored keys are the one that a session found, if any, and those under other paths. -/
theorem Session.FoundIn.keyList_perm {session : Session} {records : Records}
    (found : session.FoundIn records) : records.keyList.Perm
      (session.previous.toList ++ (records.dropKey session.path).keyList) := by
  cases previous : session.previous with
  | none =>
      unfold Session.FoundIn at found
      rw [previous] at found
      unfold Records.dropKey
      rw [Dictionary.erase_of_absent found]
      exact .refl _
  | some old => exact Records.keyList_perm_of_keyAt (found.keyAt.trans previous)

/-- A commit exchanges the key that its session found for the one it writes. -/
theorem Session.FoundIn.exchange {session : Session} {before : Records}
    (found : session.FoundIn before) (prepared : session.Sound) {options : CommitOptions}
    {written : KeyRecord} {reported committed leftOver : List Block}
    (commits : session.Commits reported options written committed leftOver) {frame : List UInt8}
    (persisted : written.persist = .ok frame) :
    before.Exchange (before.putKey written frame) session.key.volume session.key.bucket
      session.previous.toList [written.asStored] (before.dropKey session.path) where
  buckets := rfl
  taken := found.keyList_perm
  given := commits.path ▸ before.keyList_putKey_perm commits.wellFormed persisted
  insideTaken old member := by
    have place := prepared.place old (Option.mem_toList.1 member)
    exact ⟨place.volume, place.bucket⟩
  insideGiven key member := by
    rw [List.mem_singleton.1 member]
    exact ⟨commits.place.volume.symm, commits.place.bucket.symm⟩

namespace Records

variable {before after : Records} {created : List BucketRecord}

/-- Every bucket that is no link stays, with the same versioning. -/
def Keeps (before after : Records) : Prop :=
  ∀ volume name home, before.Home volume name home →
    ∃ next, after.Home volume name next ∧ next.versioning = home.versioning

theorem Keeps.refl (records : Records) : records.Keeps records :=
  fun _ _ home stands => ⟨home, stands, rfl⟩

/-- What follows from the accounts keeps the buckets that are no links. -/
theorem Follows.keeps (follows : before.Follows after) : before.Keeps after := by
  intro volume name home stands
  obtain ⟨next, stays, versioning, -⟩ := follows.homes stands
  exact ⟨next, stays, versioning⟩

/-- A commit that writes its key over the record it found, and is charged for it, is followed by
the counters. -/
theorem Balanced.commit {records : Records} (balanced : before.Balanced created)
    (sound : before.Sound) {session : Session} (prepared : session.Sound) {home : BucketRecord}
    (stands : before.Home session.key.volume session.key.bucket home)
    (versioning : home.versioning = session.versioning) (found : session.FoundIn before)
    {options : CommitOptions} {written : KeyRecord} {reported committed leftOver : List Block}
    (commits : session.Commits reported options written committed leftOver) {frame : List UInt8}
    (persisted : written.persist = .ok frame) {bytes : Int64}
    (charged : session.Charged written committed bytes)
    (moves : (before.putKey written frame).Moves session.key.volume session.key.bucket bytes
      session.addedKeys records) :
    records.Balanced created ∧ before.Keeps records := by
  have place := commits.place
  have once : home.versioning = false → ∀ old, session.previous = some old →
      old.ChargedOnce := by
    intro unversioned old previous
    obtain ⟨own, standsOwn, once⟩ := balanced.keys _ old (found.keyAt.trans previous)
    rw [(prepared.place old previous).volume, (prepared.place old previous).bucket] at standsOwn
    exact once (standsOwn.unique stands ▸ unversioned)
  have charges : home.versioning = false → written.asStored.ChargedOnce ∧
      bytes + chargedFor session.previous.toList = chargedFor [written.asStored] :=
    fun unversioned => session.charged_of_unversioned (versioning.symm.trans unversioned) commits
      charged (once unversioned)
  have follows : before.Follows records := by
    refine moves.follows (sound.putKey commits.wellFormed persisted)
      (found.exchange prepared commits persisted) stands ?_ fun unversioned =>
        (charges unversioned).2
    unfold Session.addedKeys
    cases session.previous <;> rfl
  refine ⟨balanced.of_follows follows fun path key seen => ?_, follows.keeps⟩
  rw [moves.keyAt_eq, keyAt_putKey commits.wellFormed persisted] at seen
  split at seen
  · cases seen
    refine .inr ⟨home, ?_, fun unversioned => (charges unversioned).1⟩
    change before.Home written.volume written.bucket home
    rw [← place.volume, ← place.bucket]
    exact stands
  · exact .inl seen

/-- A deletion that removes a key and is charged for it is followed by the counters. -/
theorem Balanced.delete {records : Records} (balanced : before.Balanced created)
    (sound : before.Sound) {home : BucketRecord}
    (stands : before.Home home.volume home.name home) {name : String} {record : KeyRecord}
    (seen : before.keyAt (keyPath home.volume home.name name) = some record) {freed : Int64}
    (charge : record.replication.charge record.allBlocks = .ok freed)
    (moves : (before.dropKey (keyPath home.volume home.name name)).Moves home.volume home.name
      (-freed) (-1) records) :
    records.Balanced created ∧ before.Keeps records := by
  obtain ⟨volume, bucket⟩ := balanced.inside sound stands seen
  obtain ⟨own, standsOwn, once⟩ := balanced.keys _ record seen
  rw [volume, bucket] at standsOwn
  obtain rfl := standsOwn.unique stands
  have follows : before.Follows records := by
    refine moves.follows (sound.dropKey _) (exchange_dropKey seen ⟨volume, bucket⟩) stands ?_ ?_
    · change (-1 : Int64) + .ofNat 1 = .ofNat 0
      decide
    · intro unversioned
      have same := Except.ok.inj (charge.symm.trans (once unversioned).allBlocks)
      rw [same]
      change -record.chargedBytes + (record.chargedBytes + 0) = 0
      grind
  refine ⟨balanced.of_follows follows fun path key there => .inl ?_, follows.keeps⟩
  rw [moves.keyAt_eq, keyAt_dropKey] at there
  split at there
  · cases there
  · exact there

end Records

/-- A session writes into a bucket that is no link, and that keeps older versions if the session
does. -/
def Session.LiesIn (session : Session) (records : Records) : Prop :=
  ∃ home, records.Home session.key.volume session.key.bucket home ∧
    home.versioning = session.versioning

/-- A session goes on in its bucket. -/
theorem Session.LiesIn.keeps {session : Session} {before after : Records}
    (lies : session.LiesIn before) (keeps : before.Keeps after) : session.LiesIn after := by
  obtain ⟨home, stands, versioning⟩ := lies
  obtain ⟨next, stays, same⟩ := keeps _ _ _ stands
  exact ⟨next, stays, same.trans versioning⟩

/-- A session lies in the home it was opened in, where the keys under the paths of a home lie in
it. -/
theorem Action.Opened.liesIn {before : Service} {request : OpenRequest} {session : Session}
    (stands : Action.Opened before request session)
    (inside : ∀ home old, before.records.Home home.volume home.name home →
      before.records.keyAt (keyPath home.volume home.name request.key) = some old →
        old.volume = home.volume ∧ old.bucket = home.name) :
    session.LiesIn before.records := by
  obtain ⟨home, there, versioning, path, fresh⟩ := stands.home
  cases previous : session.previous with
  | none =>
      obtain ⟨volume, bucket⟩ := fresh previous
      exact ⟨home, volume ▸ bucket ▸ there, versioning.symm⟩
  | some old =>
      have seen := stands.previous.symm.trans previous
      rw [path] at seen
      obtain ⟨volume, bucket⟩ := inside home old there seen
      have place := stands.sound.place old previous
      refine ⟨home, ?_, versioning.symm⟩
      rw [← place.volume, ← place.bucket, volume, bucket]
      exact there

/-- A bucket is created under plain names. -/
def Operation.Plain : Operation → Prop
  | .createBucket draft => (∀ volume ∈ draft.volume, ObjectLedger.Plain volume) ∧
      ∀ name ∈ draft.name, ObjectLedger.Plain name
  | _ => True

namespace World

/-- A world with a balanced store, whose sessions lie in buckets of the store. -/
structure Balanced (created : List BucketRecord) (world : World) : Prop where
  records : world.service.records.Balanced created
  sessions : ∀ place session, world.sessionAt place = some session →
    session.LiesIn world.service.records

variable {settings : Settings} {before after : World} {operation : Operation} {outcome : Outcome}
  {created : List BucketRecord}

/-- What an operation does to a balanced store. -/
theorem Step.accounts (step : Step settings before operation outcome after)
    (sound : before.Sound) (balanced : before.Balanced created) (plain : operation.Plain)
    (spares : before.service.outages.SparesStore) (exact : outcome.overflows = false) :
    after.service.records.Balanced (created ++ outcome.buckets) ∧
      before.service.records.Keeps after.service.records := by
  have same : after.service.records = before.service.records → outcome.buckets = [] →
      after.service.records.Balanced (created ++ outcome.buckets) ∧
        before.service.records.Keeps after.service.records := by
    intro records none
    rw [records, none, List.append_nil]
    exact ⟨balanced.records, Records.Keeps.refl _⟩
  cases step with
  | opened _ _ _ _ leaves => exact same leaves.records rfl
  | allocated _ _ _ _ _ _ _ leaves => exact same leaves.records rfl
  | refused _ _ _ leaves => exact same leaves.records rfl
  | absent => exact same rfl rfl
  | created wellFormed volume name persisted free leaves =>
      rw [leaves.records]
      exact ⟨balanced.records.putBucket wellFormed persisted free
        ⟨plain.1 _ volume, plain.2 _ name⟩, fun _ _ home stands =>
          ⟨home, stands.putBucket wellFormed persisted free, rfl⟩⟩
  | @committed _ _ _ _ session result service found effect =>
      have none : (Outcome.ofCommit result).buckets = [] := by cases result <;> rfl
      cases effect with
      | untouched _ leaves => exact same leaves.records none
      | rejected _ leaves => exact same leaves.records none
      | @kept fault _ _ _ _ _ _ _ _ reason =>
          cases fault with
          | error cause => exact (Service.undoes_of_sparesStore spares _ _ (reason cause rfl)).elim
          | overflow cause => cases exact
      | settled commits writes charged moves _ leaves =>
          obtain ⟨home, stands, versioning⟩ := balanced.sessions _ session found
          rw [leaves.records, none, List.append_nil]
          exact balanced.records.commit sound.records (sound.sessions _ session found).1 stands
            versioning writes.found commits writes.persisted charged moves
  | @deleted _ _ _ result service effect =>
      have none : (Outcome.ofDeletion result).buckets = [] := by cases result <;> rfl
      cases effect with
      | untouched leaves => exact same leaves.records none
      | @dropped fault _ _ _ _ _ reason =>
          cases fault with
          | error cause => exact ((reason cause rfl).not_sparesStore spares).elim
          | overflow cause => cases exact
      | settled stands seen charge moves _ leaves =>
          rw [leaves.records, none, List.append_nil]
          exact balanced.records.delete sound.records stands seen charge moves

/-- A session lies where the session lies that it goes on from. -/
theorem Continues.liesIn {session old : Session} {records : Records}
    (continues : Continues session old) (lies : old.LiesIn records) : session.LiesIn records := by
  unfold Session.LiesIn at lies ⊢
  rwa [← continues.place.volume, ← continues.place.bucket, ← continues.versioning] at lies

/-- An operation that is carried out exactly keeps a world balanced. -/
theorem Step.balanced (step : Step settings before operation outcome after)
    (sound : before.Sound) (balanced : before.Balanced created) (plain : operation.Plain)
    (spares : before.service.outages.SparesStore) (exact : outcome.overflows = false) :
    after.Balanced (created ++ outcome.buckets) := by
  obtain ⟨records, keeps⟩ := step.accounts sound balanced plain spares exact
  refine ⟨records, ?_⟩
  intro place session found
  rcases step.sessionAt found with ⟨-, request, stands⟩ | ⟨old, there, continues⟩
  · have lies := stands.liesIn fun _ _ there seen =>
      balanced.records.inside sound.records there seen
    exact lies.keeps keeps
  · exact continues.liesIn ((balanced.sessions place old there).keeps keeps)

/-- Every moment of a run without overflows is balanced, if the store refuses no call. -/
theorem Balanced.moment {world : World} {operations : List Operation}
    (balanced : world.Balanced created) (sound : world.Sound)
    (counting : ∀ count, (world.moment settings operations count).Counting)
    (spares : world.service.outages.SparesStore)
    (plain : ∀ operation ∈ operations, operation.Plain)
    (exact : ∀ outcome ∈ world.outcomes settings operations, outcome.overflows = false)
    (count : Nat) : (world.moment settings operations count).Balanced
      (created ++ (world.outcomes settings (operations.take count)).flatMap Outcome.buckets) := by
  induction count with
  | zero =>
      rw [List.take_zero, outcomes, List.flatMap_nil, List.append_nil]
      exact balanced
  | succ count ih =>
      cases next : operations[count]? with
      | none =>
          rw [moment_succ_of_none next, List.take_add_one, next, Option.toList_none,
            List.append_nil]
          exact ih
      | some operation =>
          have sparesNow :
              (world.moment settings operations count).service.outages.SparesStore := by
            intro method call refused
            exact spares method call (refused.of_schedule (sound.schedule_moment counting count))
          have member := List.mem_of_getElem? next
          rw [outcomes_take_succ next, List.flatMap_append, List.flatMap_singleton,
            ← List.append_assoc]
          exact (sound.stepAt counting next).balanced (sound.moment counting count) ih
            (plain operation member) sparesNow (exact _ (mem_outcomes next))

/-- The accounts of an empty world are balanced. -/
theorem balanced_start (allocator : Allocator) (clock : Clock) (outages : Outages) :
    (start allocator clock outages).Balanced [] where
  records := .empty
  sessions place session found := by cases found

/-- The counters of every bucket that is no link say what the stored keys of the bucket use,
beyond its counters at creation. -/
structure UsageExact (created : List BucketRecord) (world : World) : Prop where
  /-- Every stored frame is the frame of a listed key. -/
  listed : world.service.records.keyList.length = world.service.records.keys.size
  /-- Every stored bucket is one of the created ones. -/
  made : ∀ path bucket, world.service.records.bucketAt path = some bucket →
    ∃ first ∈ created, path = bucketPath first.volume first.name ∧
      first.source? = bucket.source?
  /-- Every created bucket that is no link is still stored, and is charged for its keys. -/
  exact : ∀ first ∈ created, first.source? = none → ∃ bucket,
    world.service.records.bucketAt (bucketPath first.volume first.name) = some bucket ∧
      bucket.versioning = first.versioning ∧
      bucket.usedKeys = first.usedKeys +
        .ofNat (world.service.records.keysOf first.volume first.name).length ∧
      (bucket.versioning = false → bucket.usedBytes =
        first.usedBytes + chargedFor (world.service.records.keysOf first.volume first.name) ∧
          ∀ key ∈ world.service.records.keysOf first.volume first.name, key.ChargedOnce)

/-- The usage of a balanced world is exact. -/
theorem Balanced.usageExact {world : World} (balanced : world.Balanced created)
    (sound : world.Sound) : world.UsageExact created where
  listed := sound.records.length_keyList
  made path bucket seen := by
    obtain ⟨first, member, volume, name, source⟩ := balanced.records.made path bucket seen
    obtain ⟨stored, -, holds⟩ := sound.records.stored_of_bucketAt seen
    exact ⟨first, member, by rw [volume, name, holds.path], source⟩
  exact first member source := by
    obtain ⟨home, stands, versioning, usedKeys, usedBytes⟩ :=
      balanced.records.accounts first member source
    refine ⟨home, stands.seen, versioning, usedKeys, fun unversioned =>
      ⟨usedBytes (versioning.symm.trans unversioned), fun key inside => ?_⟩⟩
    obtain ⟨listed, names⟩ := List.mem_filter.1 inside
    obtain ⟨volume, bucket⟩ := of_decide_eq_true names
    obtain ⟨path, seen⟩ := (Records.mem_keyList_iff _ _).1 listed
    obtain ⟨own, standsOwn, once⟩ := balanced.records.keys path key seen
    rw [volume, bucket] at standsOwn
    exact once (standsOwn.unique stands ▸ unversioned)

/-- After every operation of every run in which no exact result overflows and the store refuses
no call, each bucket is charged for exactly its keys, however writers are interleaved and
whatever the allocator refuses. -/
theorem usageExact_of_counting (settings : Settings) (allocator : Allocator) (clock : Clock)
    {outages : Outages} (faithful : outages.Faithful) (spares : outages.SparesStore)
    (operations : List Operation) (plain : ∀ operation ∈ operations, operation.Plain)
    (counting : (start allocator clock outages).Throughout settings Counting operations)
    (exact : ∀ outcome ∈ (start allocator clock outages).outcomes settings operations,
      outcome.overflows = false) (count : Nat) :
    ((start allocator clock outages).moment settings operations count).UsageExact
      (((start allocator clock outages).outcomes settings (operations.take count)).flatMap
        Outcome.buckets) := by
  have sound := sound_start allocator clock faithful
  have always := counting.moment (counting_start allocator clock outages)
  exact ((balanced_start allocator clock outages).moment sound always spares plain exact
    count).usageExact (sound.moment always count)

instance : DecidablePred Operation.Plain
  | .createBucket draft => inferInstanceAs (Decidable ((∀ volume ∈ draft.volume,
      ObjectLedger.Plain volume) ∧ ∀ name ∈ draft.name, ObjectLedger.Plain name))
  | .openKey _ | .allocateBlock _ | .commitKey _ _ _ _ | .deleteKey _ _ _ => .isTrue trivial

/-- A key is written with three copies and written anew with one. A session that was opened
before the first commit comes too late. -/
def overwriting : List Operation :=
  let request : OpenRequest := { volume := "v", bucket := "b", key := "k" }
  [.createBucket { volume := some "v", name := some "b", medium := some .disk },
    .openKey request, .openKey request,
    .commitKey 0 [{ Block.bare ⟨1, 1⟩ with length := 5 }] 5 {}, .commitKey 1 [] 0 {},
    .openKey { request with replication := some (.ratis 1) },
    .commitKey 2 [{ Block.bare ⟨1, 3⟩ with length := 7 }] 7 {}]

set_option maxRecDepth 20000 in
/-- The usage follows an overwrite with fewer copies and a session that comes too late. -/
theorem usageExact_overwriting :
    Outages.never.Faithful ∧ Outages.never.SparesStore ∧
    (∀ operation ∈ overwriting, operation.Plain) ∧ calm.Throughout {} Counting overwriting ∧
    (∀ outcome ∈ calm.outcomes {} overwriting, outcome.overflows = false) ∧
    chargedFor ((calm.moment {} overwriting 5).service.records.keysOf "v" "b") = 15 ∧
    chargedFor ((calm.moment {} overwriting 7).service.records.keysOf "v" "b") = 7 ∧
    ∀ count, (calm.moment {} overwriting count).UsageExact
      ((calm.outcomes {} (overwriting.take count)).flatMap Outcome.buckets) := by
  have spares : Outages.never.SparesStore := by
    rintro method call ⟨cause, same⟩
    cases same
  have plain : ∀ operation ∈ overwriting, operation.Plain := by decide +kernel
  have runs : calm.Throughout {} Counting overwriting ∧
      (∀ outcome ∈ calm.outcomes {} overwriting, outcome.overflows = false) ∧
      chargedFor ((calm.moment {} overwriting 5).service.records.keysOf "v" "b") = 15 ∧
      chargedFor ((calm.moment {} overwriting 7).service.records.keysOf "v" "b") = 7 := by
    decide +kernel
  obtain ⟨counting, exact, first, second⟩ := runs
  exact ⟨faithful_never, spares, plain, counting, exact, first, second,
    usageExact_of_counting {} _ _ faithful_never spares overwriting plain counting exact⟩

end World

end ObjectLedger
