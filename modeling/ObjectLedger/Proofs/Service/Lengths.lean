import ObjectLedger.Proofs.Service.Counter
import ObjectLedger.Proofs.Service.Order

/-! # Lengths that cannot be counted

A writer may report blocks of any length. Their total and the parity bytes for it are counted in
words before the charge is clamped, so a commit or a deletion overflows exactly where these cannot
be counted (`World.overflows_iff_of_room`). A deletion counts all versions of a key at once, after
the key was removed: versions that were committed one by one may be too long together, and then the
key is gone while its usage and its blocks remain (`World.overflows_of_lengths`).
-/

namespace ObjectLedger

namespace Action

variable {before : Service}

/-- A commit that is allowed overflows if its lengths cannot be counted. -/
theorem counts_commitKey {settings : Settings} {session : Session} (prepared : session.Sound)
    (reported : List Block) (size : UInt64) (options : CommitOptions) :
    (commitKey settings session reported size options).Ensures before
      (fun _ _ => session.Counts reported options)
      (fun fault _ => (settings.Forbids options → ∃ cause, fault = .error cause) ∧
        (¬ settings.Forbids options → ¬ session.Counts reported options →
          ∃ cause, fault = .overflow cause)) := by
  apply ensures_prepared prepared
  · exact fun forbids => ⟨fun _ => ⟨_, rfl⟩, fun permits => (permits forbids).elim⟩
  · exact fun permits _ cause => ⟨fun forbids => (permits forbids).elim, fun _ _ => ⟨cause, rfl⟩⟩
  · intro permits counts key outcome bytes _ _
    exact (ensures_any _ _).mono (fun _ _ _ => counts) fun _ _ _ =>
      ⟨fun forbids => (permits forbids).elim, fun _ uncounted => (uncounted counts).elim⟩

/-- Where no call is refused, the deletion of a key whose lengths cannot be counted overflows once
the key is gone. -/
theorem DeleteEffect.dropped_of_uncounted {volume bucket name : String}
    {result : Except Fault KeyRecord} {after : Service}
    (effect : DeleteEffect before volume bucket name result after)
    (silent : before.outages.Silent) {home : BucketRecord}
    (leads : before.records.resolve? volume bucket = some home) {key : KeyRecord}
    (seen : before.records.keyAt (keyPath home.volume home.name name) = some key)
    (uncounted : ¬ key.replication.Counts key.allBlocks) :
    (∃ cause, result = .error (.overflow cause)) ∧
      after.records = before.records.dropKey (keyPath home.volume home.name name) ∧
      after.allocator = before.allocator := by
  have spared : ∀ {reads writes}, ¬ before.RefusedBucketFrom after reads writes :=
    fun refused => refused.not_sparesStore silent.sparesStore
  cases effect with
  | untouched leaves reason => exact ((reason home key leads seen).elim spared fun refused =>
      silent _ _ refused.1).elim
  | @dropped fault _ _ _ stands there reason leaves same =>
      obtain rfl := Option.some.inj (leads.symm.trans same)
      cases fault with
      | error cause => exact (spared (reason cause rfl)).elim
      | overflow cause => exact ⟨⟨cause, rfl⟩, leaves.records, leaves.allocator⟩
  | settled stands there charge moves released leaves same =>
      obtain rfl := Option.some.inj (leads.symm.trans same)
      obtain rfl := Option.some.inj (seen.symm.trans there)
      exact (uncounted (Replication.charge_eq_ok_iff.1 charge).1).elim

end Action

/-- A name leads to one key at most. -/
theorem Records.Reaches.unique {records : Records} {volume bucket name : String}
    {first second : KeyRecord} (reaches : records.Reaches volume bucket name first)
    (also : records.Reaches volume bucket name second) : first = second := by
  obtain ⟨home, leads, seen⟩ := reaches
  obtain ⟨other, leads', seen'⟩ := also
  obtain rfl := Option.some.inj (leads.symm.trans leads')
  exact Option.some.inj (seen.symm.trans seen')

namespace World

variable {settings : Settings} {world : World} {bound : Nat}

/-- A commit with room for its generations overflows exactly if its lengths cannot be counted. -/
theorem overflows_commitKey_iff (within : world.Within bound) (formed : world.Formed)
    (room : bound + settings.rise < UInt64.size) {place : Nat} {session : Session}
    (found : world.sessionAt place = some session) (reported : List Block) (size : UInt64)
    (options : CommitOptions) :
    (world.perform settings (.commitKey place reported size options)).1.overflows = true ↔
      ¬ settings.Forbids options ∧ ¬ session.Counts reported options := by
  have prepared := (formed.sessions place session found).toSound
  have ensured := Action.Ensures.and
    (Action.dates_commitKey ⟨within.service, formed.records.toBucketsSound⟩ settings room prepared
      (within.sessions place session found) reported size options)
    (Action.counts_commitKey prepared reported size options)
  rw [perform, found]
  dsimp only
  rcases ran : (Action.commitKey settings session reported size options).exec world.service with
    ⟨fault | commit, service⟩
  · obtain ⟨⟨-, overflowing⟩, forbidden, uncounted⟩ := ensured.of_exec_error ran
    cases fault with
    | error cause =>
        refine iff_of_false Bool.false_ne_true fun known => ?_
        obtain ⟨other, same⟩ := uncounted known.1 known.2
        cases same
    | overflow cause =>
        refine iff_of_true rfl ⟨fun forbids => ?_, overflowing cause rfl⟩
        obtain ⟨other, same⟩ := forbidden forbids
        cases same
  · exact iff_of_false Bool.false_ne_true fun known => known.2 (ensured.of_exec_ok ran).2

/-- A deletion with room for its generation overflows only for a key that its name leads to, and
whose lengths cannot be counted. -/
theorem reaches_of_overflows (within : world.Within bound) (formed : world.Formed)
    (room : bound + settings.rise < UInt64.size) {volume bucket name : String}
    (overflows : (world.perform settings (.deleteKey volume bucket name)).1.overflows = true) :
    ∃ key, world.service.records.Reaches volume bucket name key ∧
      ¬ key.replication.Counts key.allBlocks := by
  have dated : world.service.Dated bound := ⟨within.service, formed.records.toBucketsSound⟩
  have narrow : bound + settings.chargeRise < UInt64.size := by
    unfold Settings.rise at room
    omega
  have dates := Action.dates_deleteKeyOf dated formed.records settings narrow volume bucket name
  rw [perform] at overflows
  rcases ran : (Action.deleteKeyOf settings volume bucket name).exec world.service with
    ⟨(cause | cause) | record, service⟩
  · rw [ran] at overflows
    cases overflows
  · exact (Action.Ensures.of_exec_error dates ran).2 cause rfl
  · rw [ran] at overflows
    cases overflows

/-- A deletion with room for its generation removes the key that its name leads to, and fails to
release it only if the lengths of its versions cannot be counted. -/
theorem perform_deleteKey_of_reaches (within : world.Within bound) (formed : world.Formed)
    (silent : world.service.outages.Silent) (room : bound + settings.rise < UInt64.size)
    {volume bucket name : String} {key : KeyRecord}
    (reaches : world.service.records.Reaches volume bucket name key) :
    (key.replication.Counts key.allBlocks →
      (world.perform settings (.deleteKey volume bucket name)).1 =
        .keyDeleted { key with encryption := none }) ∧
    (¬ key.replication.Counts key.allBlocks →
      (world.perform settings (.deleteKey volume bucket name)).1.overflows = true ∧
      ∃ path, world.service.records.keyAt path = some key ∧
        (world.after settings (.deleteKey volume bucket name)).service.records =
          world.service.records.dropKey path ∧
        (world.after settings (.deleteKey volume bucket name)).service.allocator =
          world.service.allocator) := by
  have overflowing : (world.perform settings (.deleteKey volume bucket name)).1.overflows = true →
      _ := reaches_of_overflows within formed room
  obtain ⟨home, leads, seen⟩ := reaches
  obtain ⟨result, service, performed, effect⟩ :=
    perform_deleteKey formed.records settings volume bucket name
  unfold World.after
  rw [performed] at overflowing ⊢
  constructor
  · intro counts
    have spared : ¬ world.service.RefusedBucket service :=
      fun refused => refused.not_sparesStore silent.sparesStore
    have fits : ∀ cause, result ≠ .error (.overflow cause) := by
      rintro cause rfl
      obtain ⟨other, reached, uncounted⟩ := overflowing rfl
      obtain rfl := reached.unique ⟨home, leads, seen⟩
      exact uncounted counts
    rw [effect.deleted leads seen spared (fun refused => silent _ _ refused.1)
      (fun refused => silent _ _ refused.1) fits]
    rfl
  · intro uncounted
    obtain ⟨⟨cause, rfl⟩, records, allocator⟩ := effect.dropped_of_uncounted silent leads seen
      uncounted
    exact ⟨rfl, _, seen, records, allocator⟩

/-- Every stored key is reached under its own names. -/
theorem Ordered.reaches (ordered : world.Ordered) {path : String} {key : KeyRecord}
    (seen : world.service.records.keyAt path = some key) :
    world.service.records.Reaches key.volume key.bucket key.name key := by
  obtain ⟨stored, -, holds⟩ := ordered.records.stored_of_keyAt seen
  obtain ⟨home, stands⟩ := (ordered.ordered.fits path key seen).home
  refine ⟨home, stands.resolve, ?_⟩
  rw [stands.volume, stands.name, ← holds.path]
  exact seen

/-- In every state of a service that refuses no call, with room for the generations of one more
operation, a commit overflows exactly if it is allowed and the lengths that it is charged for
cannot be counted. Every stored key is reached under its own names, and a deletion that reaches a
key succeeds exactly if the lengths of all its versions can be counted; otherwise it overflows once
the key is gone, and nothing else is released. Blocks whose lengths can be counted are charged for
the replicated size of their exact sum, clamped to the largest signed word. -/
theorem overflows_iff_of_room (settings : Settings) (allocator : Allocator) (clock : Clock)
    (operations : List Operation) {world : World}
    (reached : world = (start allocator clock .never).run settings operations) {bound : Nat}
    (within : world.Within bound) (room : bound + settings.rise < UInt64.size) :
    (∀ place session reported size options, world.sessionAt place = some session →
      ((world.perform settings (.commitKey place reported size options)).1.overflows = true ↔
        ¬ settings.Forbids options ∧ ¬ session.Counts reported options)) ∧
    (∀ path key, world.service.records.keyAt path = some key →
      world.service.records.Reaches key.volume key.bucket key.name key) ∧
    (∀ volume bucket name key, world.service.records.Reaches volume bucket name key →
      (key.replication.Counts key.allBlocks →
        (world.perform settings (.deleteKey volume bucket name)).1 =
          .keyDeleted { key with encryption := none }) ∧
      (¬ key.replication.Counts key.allBlocks →
        (world.perform settings (.deleteKey volume bucket name)).1.overflows = true ∧
        ∃ path, world.service.records.keyAt path = some key ∧
          (world.after settings (.deleteKey volume bucket name)).service.records =
            world.service.records.dropKey path ∧
          (world.after settings (.deleteKey volume bucket name)).service.allocator =
            world.service.allocator)) ∧
    ∀ (replication : Replication) (blocks : List Block) (bytes : Int64),
      replication.charge blocks = .ok bytes ↔ replication.Counts blocks ∧
        bytes = Word.clampSigned (replication.exactSize (Block.total blocks)) := by
  obtain ⟨ordered, silent⟩ := ordered_of_never reached
  refine ⟨?_, fun path key seen => ordered.reaches seen, ?_, fun _ _ _ =>
    Replication.charge_eq_ok_iff⟩
  · intro place session reported size options found
    exact overflows_commitKey_iff within ordered.toFormed room found reported size options
  · intro volume bucket name key reaches
    exact perform_deleteKey_of_reaches within ordered.toFormed silent room reaches

/-- A block of half the length that a word can count. -/
def halfLong (id : BlockId) : Block := { Block.bare id with length := 9223372036854775808 }

/-- A bucket that keeps versions, and a key in it that is open for writing. -/
def versionedOpened : List Operation :=
  [.createBucket { volume := some "v", name := some "b", medium := some .disk, versioning := true },
    .openKey { volume := "v", bucket := "b", key := "k" }]

/-- Two versions of one such block are stored, and a third version is open. -/
def lengthening : List Operation :=
  versionedOpened ++ [.commitKey 0 [halfLong ⟨1, 1⟩] 0 {},
    .openKey { volume := "v", bucket := "b", key := "k" }, .commitKey 1 [halfLong ⟨1, 2⟩] 0 {},
    .openKey { volume := "v", bucket := "b", key := "k" }]

set_option maxRecDepth 20000 in
/-- An empty third version can be committed, but the key cannot be deleted any more. -/
theorem overflows_of_lengthening :
    (calm.run {} lengthening).Within 205 ∧ 205 + ({} : Settings).rise < UInt64.size ∧
    ((calm.run {} lengthening).perform {} (.commitKey 2 [] 0 {})).1.overflows = false ∧
    ((calm.run {} lengthening).perform {} (.deleteKey "v" "b" "k")).1.overflows = true := by
  have runs : (∃ session ∈ (calm.run {} lengthening).sessionAt 2, session.Counts [] {}) ∧
      ∃ key ∈ (calm.run {} lengthening).service.records.keyAt (keyPath "v" "b" "k"),
        (key.volume = "v" ∧ key.bucket = "b" ∧ key.name = "k") ∧
          ¬ key.replication.Counts key.allBlocks := by
    decide +kernel
  have within : (calm.run {} lengthening).Within 205 := by
    have formed : calm.Formed := formed_start _ _ faithful_never
    have moment : (calm.moment {} lengthening 6).Within (1 + 6 * ({} : Settings).rise) :=
      (within_start _ _ _).moment formed (by decide) (Nat.le_refl 6)
    exact moment
  have reached : calm.run {} lengthening =
      (start calm.service.allocator calm.service.clock .never).run {} lengthening := by
    unfold calm
    rfl
  -- The world is not to be computed again below.
  generalize calm.run {} lengthening = world at *
  obtain ⟨⟨session, found, counts⟩, key, seen, ⟨volume, bucket, name⟩, uncounted⟩ := runs
  have room : 205 + ({} : Settings).rise < UInt64.size := by decide
  obtain ⟨commits, reaches, deletes, -⟩ := overflows_iff_of_room {} calm.service.allocator
    calm.service.clock lengthening reached within room
  have there := reaches _ key seen
  rw [volume, bucket, name] at there
  refine ⟨within, room, Bool.eq_false_iff.2 fun overflows => ?_, ?_⟩
  · exact ((commits 2 session [] 0 {} found).1 overflows).2 counts
  · exact ((deletes "v" "b" "k" key there).2 uncounted).1

set_option maxRecDepth 20000 in
/-- A report of two such blocks overflows, and so does the deletion of two versions of one each:
the key is gone, and its usage and its blocks remain. -/
theorem overflows_of_lengths :
    ((calm.run {} (versionedOpened ++ [.allocateBlock 0])).perform {}
      (.commitKey 0 [halfLong ⟨1, 1⟩, halfLong ⟨1, 2⟩] 0 {})).1 = .failed (.overflow .add) ∧
    ((calm.run {} lengthening).perform {} (.deleteKey "v" "b" "k")).1 =
      .failed (.overflow .add) ∧
    (calm.run {} lengthening).service.records.keys.contains "/v/b/k" = true ∧
    ((calm.run {} lengthening).after {}
      (.deleteKey "v" "b" "k")).service.records.keys.contains "/v/b/k" = false ∧
    (((calm.run {} lengthening).after {}
      (.deleteKey "v" "b" "k")).service.records.bucketAt "/v/b").map (·.usedKeys) = some 1 ∧
    ((calm.run {} lengthening).after {}
      (.deleteKey "v" "b" "k")).service.allocator.isLive ⟨1, 1⟩ = true := by
  decide +kernel

end World

end ObjectLedger
